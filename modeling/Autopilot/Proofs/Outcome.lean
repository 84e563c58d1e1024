/-
  Computations that may fail: when they succeed, and what is known of the result.

  `Accepts x p q` says of a computation `x` that it succeeds exactly when `p` holds, and
  that what it returns satisfies `q`. It is one statement for both directions, so a check
  that is put together from smaller ones is described by putting their descriptions
  together: in sequence (`Accepts.bind`), over a list (`accepts_mapM`, `accepts_forM`) and
  along a list with a state (`accepts_foldlM`).

  `FailsWith x p` says that every fault of a computation is of a certain sort. A computation that
  is put together from parts has no faults but theirs.

  `Concludes x fault? q` also says which fault it is. In a sequence it is the fault of the
  first part that has one (`Concludes.bind`), and over a list that of the first item
  (`concludes_mapM`).
-/
import Mathlib.Data.List.Forall2

namespace Autopilot

variable {ε α β : Type}

/-- The computation succeeds exactly when `p` holds, and its result satisfies `q`. -/
def Accepts (x : Except ε α) (p : Prop) (q : α → Prop) : Prop :=
  (p → ∃ a, x = .ok a) ∧ ∀ a, x = .ok a → p ∧ q a

/-! ## Sequences of two -/

/-- Behind a success only its result counts. -/
theorem ok_bind (a : α) (f : α → Except ε β) : (Except.ok a >>= f) = f a := rfl

theorem bind_eq_ok {x : Except ε α} {f : α → Except ε β} {b : β} :
    (x >>= f) = .ok b ↔ ∃ a, x = .ok a ∧ f a = .ok b := by
  cases x with
  | error e => simp [bind, Except.bind]
  | ok a => simp [bind, Except.bind]

theorem bind_eq_error {x : Except ε α} {f : α → Except ε β} {e : ε} :
    (x >>= f) = .error e ↔ x = .error e ∨ ∃ a, x = .ok a ∧ f a = .error e := by
  cases x with
  | error e' => simp [bind, Except.bind]
  | ok a => simp [bind, Except.bind]

theorem map_eq_ok {x : Except ε α} {f : α → β} {b : β} :
    x.map f = .ok b ↔ ∃ a, x = .ok a ∧ f a = b := by
  cases x with
  | error e => simp [Except.map]
  | ok a => simp [Except.map]

theorem map_eq_error {x : Except ε α} {f : α → β} {e : ε} : x.map f = .error e ↔ x = .error e := by
  cases x with
  | error e' => simp [Except.map]
  | ok a => simp [Except.map]

/-- A computation fails exactly if it does not succeed. -/
theorem exists_error_iff {x : Except ε α} : (∃ e, x = .error e) ↔ ¬ ∃ a, x = .ok a := by
  cases x with
  | error e => simp
  | ok a => simp

theorem mapError_eq_ok {ε' : Type} {x : Except ε α} {f : ε → ε'} {a : α} :
    x.mapError f = .ok a ↔ x = .ok a := by
  cases x with
  | error e => simp [Except.mapError]
  | ok a => simp [Except.mapError]

/-- A sequence of two that carry a state. -/
theorem state_bind_eq_ok {σ : Type} {x : StateT σ (Except ε) α} {f : α → StateT σ (Except ε) β}
    {s : σ} {b : β} {s' : σ} :
    (x >>= f) s = .ok (b, s') ↔ ∃ a mid, x s = .ok (a, mid) ∧ f a mid = .ok (b, s') := by
  have hbind : (x >>= f) s = (x s >>= fun p => f p.1 p.2) := rfl
  rw [hbind, bind_eq_ok]
  constructor
  · rintro ⟨⟨a, mid⟩, hx, hf⟩
    exact ⟨a, mid, hx, hf⟩
  · rintro ⟨a, mid, hx, hf⟩
    exact ⟨(a, mid), hx, hf⟩

theorem state_bind_eq_error {σ : Type} {x : StateT σ (Except ε) α}
    {f : α → StateT σ (Except ε) β} {s : σ} {e : ε} :
    (x >>= f) s = .error e ↔ x s = .error e ∨ ∃ a mid, x s = .ok (a, mid) ∧ f a mid = .error e := by
  have hbind : (x >>= f) s = (x s >>= fun p => f p.1 p.2) := rfl
  rw [hbind, bind_eq_error]
  simp only [Prod.exists]

/-- A computation without a state leaves the state as it is. -/
theorem state_lift_eq_ok {σ : Type} {x : Except ε α} {s s' : σ} {a : α} :
    (liftM x : StateT σ (Except ε) α) s = .ok (a, s') ↔ x = .ok a ∧ s' = s := by
  have hlift : (liftM x : StateT σ (Except ε) α) s = (x >>= fun a => .ok (a, s)) := rfl
  rw [hlift, bind_eq_ok]
  constructor
  · rintro ⟨a', hx, hpair⟩
    cases hpair
    exact ⟨hx, rfl⟩
  · rintro ⟨hx, rfl⟩
    exact ⟨a, hx, rfl⟩

/-- Behind a computation without a state only its result counts. -/
theorem state_lift_bind {σ : Type} {x : Except ε α} {f : α → StateT σ (Except ε) β} {s : σ} :
    ((liftM x : StateT σ (Except ε) α) >>= f) s = (x >>= fun a => f a s) := by
  cases x with
  | ok a => rfl
  | error e => rfl

/-- A last step that only shapes the result. -/
theorem state_bind_pure {σ : Type} {x : StateT σ (Except ε) α} {f : α → β} {s : σ} :
    (x >>= fun a => pure (f a)) s = (x s).map fun p => (f p.1, p.2) := by
  have hbind : (x >>= fun a => pure (f a)) s = (x s >>= fun p => .ok (f p.1, p.2)) := rfl
  rw [hbind]
  cases x s with
  | ok p => rfl
  | error e => rfl

/-- The outcome of a computation with the state behind it, which is the one before it if the
    computation fails. -/
def settle {σ α : Type} (state : σ) : Except ε (α × σ) → Except ε α × σ
  | .ok (a, next) => (.ok a, next)
  | .error fault => (.error fault, state)

theorem settle_of_error {σ α : Type} {state : σ} {x : Except ε (α × σ)} {fault : ε}
    (h : (settle state x).1 = .error fault) : settle state x = (.error fault, state) := by
  cases x with
  | ok p => cases h
  | error fault' =>
    cases h
    rfl

namespace Accepts

variable {x : Except ε α} {p p' : Prop} {q q' : α → Prop}

theorem exists_ok_iff (h : Accepts x p q) : (∃ a, x = .ok a) ↔ p := by
  constructor
  · rintro ⟨a, ha⟩
    exact (h.2 a ha).1
  · exact h.1

/-- The condition may be restated, and with it the result, from what is known of the result. -/
theorem restate (h : Accepts x p q) (hp : p' → p) (hq : ∀ a, p → q a → p' ∧ q' a) :
    Accepts x p' q' := by
  refine ⟨fun hp' => h.1 (hp hp'), ?_⟩
  intro a ha
  obtain ⟨hpa, hqa⟩ := h.2 a ha
  exact hq a hpa hqa

theorem imp (h : Accepts x p q) (hp : p ↔ p') (hq : ∀ a, p → q a → q' a) : Accepts x p' q' :=
  h.restate hp.mpr fun a hpa hqa => ⟨hp.mp hpa, hq a hpa hqa⟩

/-- Behind a success its condition is known. -/
theorem known (h : Accepts x p q) : Accepts x p (fun a => p ∧ q a) :=
  h.restate id fun _ hpa hqa => ⟨hpa, hpa, hqa⟩

theorem bind {f : α → Except ε β} {r : Prop} {s : β → Prop} (h : Accepts x p q)
    (hf : ∀ a, q a → Accepts (f a) r s) : Accepts (x >>= f) (p ∧ r) s := by
  constructor
  · rintro ⟨hp, hr⟩
    obtain ⟨a, ha⟩ := h.1 hp
    obtain ⟨b, hb⟩ := (hf a (h.2 a ha).2).1 hr
    exact ⟨b, bind_eq_ok.mpr ⟨a, ha, hb⟩⟩
  · intro b hb
    obtain ⟨a, ha, hfa⟩ := bind_eq_ok.mp hb
    obtain ⟨hp, hq⟩ := h.2 a ha
    obtain ⟨hr, hs⟩ := (hf a hq).2 b hfa
    exact ⟨⟨hp, hr⟩, hs⟩

/-- The same for a sequence that is told by what it does in either case of its first part. -/
theorem andThen {f : α → Except ε β} {z : Except ε β} {r : Prop} {s : β → Prop}
    (hx : Accepts x p q) (hf : ∀ a, q a → Accepts (f a) r s) (hok : ∀ a, x = .ok a → z = f a)
    (herror : ∀ e, x = .error e → z = .error e) : Accepts z (p ∧ r) s := by
  have hz : z = x >>= f := by
    cases hxe : x with
    | error e => exact herror e hxe
    | ok a => exact hok a hxe
  rw [hz]
  exact hx.bind hf

end Accepts

theorem accepts_ok {a : α} {p : Prop} {q : α → Prop} (hp : p) (hq : q a) :
    Accepts (.ok a : Except ε α) p q := by
  refine ⟨fun _ => ⟨a, rfl⟩, ?_⟩
  intro b hb
  cases hb
  exact ⟨hp, hq⟩

theorem accepts_error {e : ε} {p : Prop} {q : α → Prop} (hp : ¬ p) :
    Accepts (.error e : Except ε α) p q :=
  ⟨fun h => absurd h hp, fun _ h => nomatch h⟩

/-- A test passes exactly when its condition holds. -/
theorem accepts_test (c : Prop) [Decidable c] (e : ε) :
    Accepts (if c then .ok () else .error e) c (fun _ => True) := by
  by_cases hc : c
  · rw [if_pos hc]
    exact accepts_ok hc trivial
  · rw [if_neg hc]
    exact accepts_error hc

/-! ## Lists -/

/-- In related lists every item of the right one has a related item in the left one. -/
theorem exists_of_mem_right {α β : Type} {r : α → β → Prop} {xs : List α} {ys : List β}
    (h : List.Forall₂ r xs ys) {y : β} (hy : y ∈ ys) : ∃ x ∈ xs, r x y := by
  induction h with
  | nil => cases hy
  | @cons x y' xs ys hxy hrest ih =>
    rcases List.mem_cons.mp hy with rfl | hy
    · exact ⟨x, List.mem_cons_self, hxy⟩
    · obtain ⟨x', hx', hrelated⟩ := ih hy
      exact ⟨x', List.mem_cons_of_mem x hx', hrelated⟩

theorem mapM_eq_ok {f : α → Except ε β} {xs : List α} {ys : List β} :
    xs.mapM f = .ok ys ↔ List.Forall₂ (fun x y => f x = .ok y) xs ys := by
  induction xs generalizing ys with
  | nil =>
    cases ys with
    | nil => simp [pure, Except.pure]
    | cons y ys => simp [pure, Except.pure]
  | cons x xs ih =>
    rw [List.mapM_cons, bind_eq_ok]
    constructor
    · rintro ⟨y, hy, hrest⟩
      obtain ⟨zs, hzs, hcons⟩ := bind_eq_ok.mp hrest
      cases hcons
      exact .cons hy (ih.mp hzs)
    · intro h
      cases h with
      | cons hy hzs => exact ⟨_, hy, bind_eq_ok.mpr ⟨_, ih.mpr hzs, rfl⟩⟩

theorem mapM_congr {f g : α → Except ε β} {xs : List α} (h : ∀ x ∈ xs, f x = g x) :
    xs.mapM f = xs.mapM g := by
  induction xs with
  | nil => rfl
  | cons x xs ih =>
    rw [List.forall_mem_cons] at h
    rw [List.mapM_cons, List.mapM_cons, h.1, ih h.2]

/-- A failure over a list is that of the first item that has one. -/
theorem mapM_eq_error_iff {f : α → Except ε β} {xs : List α} {e : ε} :
    xs.mapM f = .error e ↔ ∃ front x back, xs = front ++ x :: back ∧
      (∀ y ∈ front, ∃ b, f y = .ok b) ∧ f x = .error e := by
  induction xs with
  | nil => simp [pure, Except.pure]
  | cons head rest ih =>
    rw [List.mapM_cons, bind_eq_error]
    constructor
    · rintro (hhead | ⟨b, hb, hrest⟩)
      · exact ⟨[], head, rest, rfl, by simp, hhead⟩
      · rcases bind_eq_error.mp hrest with hrest | ⟨bs, -, hpure⟩
        · obtain ⟨front, x, back, rfl, hfront, hx⟩ := ih.mp hrest
          refine ⟨head :: front, x, back, rfl, ?_, hx⟩
          exact List.forall_mem_cons.mpr ⟨⟨b, hb⟩, hfront⟩
        · cases hpure
    · rintro ⟨front, x, back, hsplit, hfront, hx⟩
      cases front with
      | nil =>
        cases hsplit
        exact .inl hx
      | cons first front =>
        cases hsplit
        obtain ⟨⟨b, hb⟩, hfront⟩ := List.forall_mem_cons.mp hfront
        exact .inr ⟨b, hb, bind_eq_error.mpr (.inl (ih.mpr ⟨front, x, back, rfl, hfront, hx⟩))⟩

theorem accepts_mapM {f : α → Except ε β} {xs : List α} {p : α → Prop} {q : α → β → Prop}
    (h : ∀ x ∈ xs, Accepts (f x) (p x) (q x)) :
    Accepts (xs.mapM f) (∀ x ∈ xs, p x) (List.Forall₂ q xs) := by
  induction xs with
  | nil =>
    rw [List.mapM_nil]
    exact accepts_ok (by simp) .nil
  | cons x xs ih =>
    have htail := ih fun y hy => h y (List.mem_cons_of_mem _ hy)
    rw [List.mapM_cons]
    refine Accepts.imp ((h x List.mem_cons_self).bind fun y hy => htail.bind fun ys hys =>
      accepts_ok trivial (List.Forall₂.cons hy hys)) ?_ (fun _ _ h => h)
    simp

theorem accepts_forM {f : α → Except ε Unit} {xs : List α} {p : α → Prop}
    (h : ∀ x ∈ xs, Accepts (f x) (p x) (fun _ => True)) :
    Accepts (xs.forM f) (∀ x ∈ xs, p x) (fun _ => True) := by
  induction xs with
  | nil => exact accepts_ok (by simp) trivial
  | cons x xs ih =>
    have htail := ih fun y hy => h y (List.mem_cons_of_mem _ hy)
    refine Accepts.imp ((h x List.mem_cons_self).bind fun _ _ => htail) ?_ (fun _ _ h => h)
    simp

/-- A pass along a list. What is known of the state is an invariant `inv` of the items already
    passed, and the condition `p` on an item may speak of them too. -/
theorem accepts_foldlM {f : β → α → Except ε β} (inv : List α → β → Prop)
    (p : List α → α → Prop)
    (hstep : ∀ passed state x, inv passed state →
      Accepts (f state x) (p passed x) (inv (passed ++ [x])))
    (xs passed : List α) (state : β) (h : inv passed state) :
    Accepts (xs.foldlM f state) (∀ i x, xs[i]? = some x → p (passed ++ xs.take i) x)
      (inv (passed ++ xs)) := by
  induction xs generalizing passed state with
  | nil =>
    rw [List.foldlM_nil, List.append_nil]
    exact accepts_ok (by simp) h
  | cons x xs ih =>
    rw [List.foldlM_cons]
    have hfirst := hstep passed state x h
    refine Accepts.imp (hfirst.bind fun next hnext => ih _ next hnext) ?_ ?_
    · -- the first item is judged behind `passed` alone, item `i + 1` behind `x` as well
      constructor
      · rintro ⟨hx, hrest⟩ i y hi
        cases i with
        | zero =>
          cases hi
          simpa using hx
        | succ i => simpa using hrest i y hi
      · intro h
        refine ⟨by simpa using h 0 x rfl, ?_⟩
        intro i y hi
        simpa using h (i + 1) y hi
    · intro state' _ hstate
      simpa using hstate

/-- A pass fails at the first item whose step fails, behind items that it passes. -/
theorem foldlM_eq_error_iff {f : β → α → Except ε β} {xs : List α} {state : β} {e : ε} :
    xs.foldlM f state = .error e ↔ ∃ front x back mid, xs = front ++ x :: back ∧
      front.foldlM f state = .ok mid ∧ f mid x = .error e := by
  constructor
  · intro h
    induction xs generalizing state with
    | nil => cases h
    | cons head rest ih =>
      rw [List.foldlM_cons, bind_eq_error] at h
      rcases h with hhead | ⟨next, hnext, hrest⟩
      · exact ⟨[], head, rest, state, rfl, rfl, hhead⟩
      · obtain ⟨front, x, back, mid, rfl, hfront, hx⟩ := ih hrest
        refine ⟨head :: front, x, back, mid, rfl, ?_, hx⟩
        rw [List.foldlM_cons]
        exact bind_eq_ok.mpr ⟨next, hnext, hfront⟩
  · rintro ⟨front, x, back, mid, rfl, hfront, hx⟩
    rw [List.foldlM_append, hfront, ok_bind, List.foldlM_cons, hx]
    rfl

/-! ## Faults of one sort -/

/-- Whatever fault the computation fails with satisfies `p`. -/
def FailsWith (x : Except ε α) (p : ε → Prop) : Prop :=
  ∀ e, x = .error e → p e

theorem failsWith_ok (a : α) (p : ε → Prop) : FailsWith (.ok a : Except ε α) p := by
  intro e he
  cases he

theorem failsWith_error {e : ε} {p : ε → Prop} (h : p e) :
    FailsWith (.error e : Except ε α) p := by
  intro e' he
  cases he
  exact h

theorem FailsWith.bind {x : Except ε α} {f : α → Except ε β} {p : ε → Prop}
    (h : FailsWith x p) (hf : ∀ a, FailsWith (f a) p) : FailsWith (x >>= f) p := by
  intro e he
  rcases bind_eq_error.mp he with hx | ⟨a, -, ha⟩
  · exact h e hx
  · exact hf a e ha

theorem failsWith_mapError {ε' : Type} (x : Except ε α) {f : ε → ε'} {p : ε' → Prop}
    (h : ∀ e, p (f e)) : FailsWith (x.mapError f) p := by
  cases x with
  | error e => exact failsWith_error (h e)
  | ok a => exact failsWith_ok a p

theorem FailsWith.map {x : Except ε α} {f : α → β} {p : ε → Prop} (h : FailsWith x p) :
    FailsWith (x.map f) p :=
  fun e he => h e (map_eq_error.mp he)

/-- A refusal in front of other checks. -/
theorem failsWith_unless {c : Prop} [Decidable c] {e : ε} {rest : Unit → Except ε α} {p : ε → Prop}
    (he : p e) (h : FailsWith (rest ()) p) :
    FailsWith (if c then (Except.error e >>= rest) else rest ()) p := by
  split
  · exact failsWith_error he
  · exact h

theorem failsWith_mapM {f : α → Except ε β} {p : ε → Prop} (h : ∀ x, FailsWith (f x) p)
    (xs : List α) : FailsWith (xs.mapM f) p := by
  induction xs with
  | nil => exact failsWith_ok [] p
  | cons x xs ih =>
    rw [List.mapM_cons]
    exact (h x).bind fun y => ih.bind fun ys => failsWith_ok (y :: ys) p

theorem failsWith_forM {f : α → Except ε Unit} {p : ε → Prop} (h : ∀ x, FailsWith (f x) p)
    (xs : List α) : FailsWith (xs.forM f) p := by
  induction xs with
  | nil => exact failsWith_ok () p
  | cons x xs ih => exact (h x).bind fun _ => ih

/-! ## The fault itself -/

/-- The computation fails with the fault if there is one, and otherwise returns a result that
    satisfies `q`. -/
def Concludes (x : Except ε α) (fault? : Option ε) (q : α → Prop) : Prop :=
  match fault? with
  | some fault => x = .error fault
  | none => ∃ a, x = .ok a ∧ q a

namespace Concludes

variable {x : Except ε α} {fault? : Option ε} {q : α → Prop}

theorem exists_ok_iff (h : Concludes x fault? q) : (∃ a, x = .ok a) ↔ fault? = none := by
  cases fault? with
  | none =>
    obtain ⟨a, ha, -⟩ := h
    simp [ha]
  | some fault =>
    have herror : x = .error fault := h
    simp [herror]

theorem of_ok (h : Concludes x fault? q) {a : α} (ha : x = .ok a) : q a := by
  cases fault? with
  | none =>
    obtain ⟨a', ha', hq⟩ := h
    rw [ha] at ha'
    cases ha'
    exact hq
  | some fault =>
    have herror : x = .error fault := h
    rw [ha] at herror
    cases herror

theorem of_error (h : Concludes x fault? q) {fault : ε} (hfault : x = .error fault) :
    fault? = some fault := by
  cases fault? with
  | none =>
    obtain ⟨a, ha, -⟩ := h
    rw [ha] at hfault
    cases hfault
  | some fault' =>
    have herror : x = .error fault' := h
    rw [hfault] at herror
    cases herror
    rfl

/-- The same for a computation that leaves its state as it is. -/
theorem exists_ok_state_iff {σ : Type} {x : Except ε (α × σ)} {q : α × σ → Prop} {state : σ}
    (h : Concludes x fault? q) (hstate : ∀ p, q p → p.2 = state) :
    (∃ a, x = .ok (a, state)) ↔ fault? = none := by
  rw [← h.exists_ok_iff]
  constructor
  · intro hok
    obtain ⟨a, ha⟩ := hok
    exact ⟨_, ha⟩
  · intro hok
    obtain ⟨⟨a, next⟩, ha⟩ := hok
    have hnext : next = state := hstate _ (h.of_ok ha)
    rw [hnext] at ha
    exact ⟨a, ha⟩

/-- In a sequence of two, the second part has its say where the first has no fault. -/
theorem bind {f : α → Except ε β} {next? : Option ε} {r : β → Prop} (h : Concludes x fault? q)
    (hf : ∀ a, q a → Concludes (f a) next? r) : Concludes (x >>= f) (fault?.or next?) r := by
  cases fault? with
  | none =>
    obtain ⟨a, ha, hq⟩ := h
    rw [ha, Option.none_or]
    exact hf a hq
  | some fault =>
    have herror : x = .error fault := h
    rw [herror, Option.some_or]
    rfl

theorem map {f : α → β} {r : β → Prop} (h : Concludes x fault? q) (hf : ∀ a, q a → r (f a)) :
    Concludes (x.map f) fault? r := by
  cases fault? with
  | none =>
    obtain ⟨a, ha, hq⟩ := h
    rw [ha]
    exact ⟨f a, rfl, hf a hq⟩
  | some fault =>
    have herror : x = .error fault := h
    rw [herror]
    rfl

end Concludes

theorem concludes_mapM {f : α → Except ε β} {fault? : α → Option ε} {q : α → β → Prop}
    {xs : List α} (h : ∀ x ∈ xs, Concludes (f x) (fault? x) (q x)) :
    Concludes (xs.mapM f) (xs.findSome? fault?) (List.Forall₂ q xs) := by
  induction xs with
  | nil => exact ⟨[], rfl, .nil⟩
  | cons x xs ih =>
    have htail := ih fun y hy => h y (List.mem_cons_of_mem _ hy)
    have hseq : Concludes (f x >>= fun y => xs.mapM f >>= fun ys => pure (y :: ys))
        ((fault? x).or (xs.findSome? fault?)) (List.Forall₂ q (x :: xs)) := by
      refine (h x List.mem_cons_self).bind fun y hy => ?_
      exact htail.map fun ys hys => List.Forall₂.cons hy hys
    rw [List.mapM_cons, List.findSome?_cons]
    cases hfault : fault? x with
    | none =>
      rw [hfault] at hseq
      exact hseq
    | some fault =>
      rw [hfault] at hseq
      exact hseq

end Autopilot
