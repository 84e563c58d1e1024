/-
  Calls of many clients over one ledger.

  Calls begin at any time, and the ledger steps of those that have begun alternate in any order;
  each step of the ledger is atomic, and between two steps of a call others may find, change and
  remove what the call has looked at. Still every call takes effect at a single moment, its last
  step: what its owner's check has seen by then, it would see again, or the subscription is gone
  and the check would find that (`Resumable.step`). So the calls in the order of their last steps,
  each made without interruption, end as they did (`Serializes`), and a call that was over before
  another began comes before it. Since no more numbers are given out than calls are made, the
  ledger of a process has one for every subscription of fewer than `bitBound 64` calls.
-/
import Autopilot.Proofs.Subscription.Effects
import Autopilot.Proofs.Subscription.Events
import Mathlib.Data.List.Perm.Subperm

namespace Autopilot

variable {σ : Type}

/-! ## Calls in progress -/

/-- A call that has begun: the calls that were over by then, and what it has still to do. -/
structure Progress where
  call : Call
  earlier : List Nat
  rest : Script Reply

/-- The event of a call that is over. -/
def Progress.event? (p : Progress) : Option Event :=
  p.rest.outcome?.map fun outcome => ⟨p.call, outcome⟩

/-- A ledger and the calls that have begun, by the order of their beginnings. A client that waits
    for each answer begins its next call when the last one is over. -/
structure System (σ : Type) where
  ledger : σ
  calls : List Progress

/-- What may happen next. -/
inductive Move where
  /-- A client begins a call. -/
  | begin (call : Call)
  /-- The call at a place takes its next ledger step. -/
  | advance (place : Nat)

namespace System

/-- No call has begun. -/
def start (ledger : σ) : System σ := ⟨ledger, []⟩

/-- The event of the call at a place, if it is over. -/
def event? (s : System σ) (place : Nat) : Option Event :=
  s.calls[place]?.bind Progress.event?

/-- The places of the calls that are over. -/
def finished (s : System σ) : List Nat :=
  (List.range s.calls.length).filter fun place => (s.event? place).isSome

/-- The call at the first place was over when the one at the second began. -/
def Before (s : System σ) (first second : Nat) : Prop :=
  ∃ p, s.calls[second]? = some p ∧ first ∈ p.earlier

theorem lt_of_event? {s : System σ} {place : Nat} (h : (s.event? place).isSome = true) :
    place < s.calls.length := by
  by_contra hlt
  rw [event?, List.getElem?_eq_none (Nat.le_of_not_lt hlt)] at h
  cases h

end System

variable [Ledger σ]

namespace System

/-- A move; one at a place where there is nothing to do changes nothing. -/
def move (s : System σ) : Move → System σ
  | .begin call => ⟨s.ledger, s.calls ++ [⟨call, s.finished, call.script⟩]⟩
  | .advance place =>
    match s.calls[place]? with
    | none => s
    | some p =>
      let (rest, ledger) := p.rest.step s.ledger
      ⟨ledger, s.calls.set place { p with rest }⟩

/-- Moves, one after the other. -/
def run (s : System σ) (moves : List Move) : System σ :=
  moves.foldl move s

end System

/-- The calls of the events, each made on the ledger that the one before has left, end as the events
    say, and leave the last ledger. -/
def Serial (ledger : σ) : List Event → σ → Prop
  | [], last => last = ledger
  | event :: events, last =>
    (settle ledger (event.call.perform ledger)).1 = event.outcome ∧
      Serial (settle ledger (event.call.perform ledger)).2 events last

/-- The order consists of the calls that are over, keeps those apart that did not overlap, and makes
    the outcomes and the ledger those of calls that are made one by one. -/
structure System.Serializes (first : σ) (s : System σ) (order : List Nat) : Prop where
  nodup : order.Nodup
  mem_iff : ∀ place, place ∈ order ↔ (s.event? place).isSome = true
  respects : order.Pairwise fun i j => ¬ s.Before j i
  serial : Serial first (order.filterMap s.event?) s.ledger

/-- However calls alternate on a ledger, they end as in some order of whole calls, and what is found
    under a number is changed by calls of its owner only. -/
structure Ledger.Linearizable (first : σ) : Prop where
  exists_order : ∀ moves, ∃ order, ((System.start first).run moves).Serializes first order
  owner : ∀ moves move id,
    let s := (System.start first).run moves
    Ledger.fetch s.ledger id ≠ .ok none →
      Ledger.fetch (s.move move).ledger id ≠ Ledger.fetch s.ledger id →
        ∃ place p found handle, move = .advance place ∧ s.calls[place]? = some p ∧
          Ledger.fetch s.ledger id = .ok (some found) ∧
          Ledger.fetch s.ledger handle = .ok (some found) ∧
          (p.call = .activate handle found.owner ∨ p.call = .deactivate handle found.owner ∨
            p.call = .revoke handle found.owner)

/-! ## What a call has still to do -/

section Resuming

variable {sound : σ → Prop} {issued : σ → Nat → Prop}

/-- What is left of a call is all of it, or the change behind a check that would not fail for
    another owner. -/
inductive Resumable (issued : σ → Nat → Prop) (ledger : σ) (call : Call) : Script Reply → Prop where
  | fresh : Resumable issued ledger call call.script
  | vetted {id : Nat} {caller : Address} {last : Script Unit} :
    call.Changes id caller last → Ledger.Vetted issued ledger id caller →
      Resumable issued ledger call (last.map fun _ => .done)

theorem Resumable.effect (hlawful : Ledger.Lawful sound issued) {ledger next : σ}
    (hsound : sound ledger) {call other : Call} {rest : Script Reply}
    (h : Resumable issued ledger call rest) (heffect : other.Effect ledger next) :
    Resumable issued next call rest := by
  cases h with
  | fresh => exact .fresh
  | vetted hchanges hvetted => exact .vetted hchanges (hvetted.effect hlawful hsound heffect)

/-- A step of a call ends it as the whole call would end here, or changes nothing. -/
theorem Resumable.step (hlawful : Ledger.Lawful sound issued) {ledger : σ} (hsound : sound ledger)
    {call : Call} {rest : Script Reply} (h : Resumable issued ledger call rest) :
    (∃ outcome next, call.EndsWith rest ledger outcome next ∧
        settle ledger (call.perform ledger) = (outcome, next)) ∨
      ∃ rest', rest.step ledger = (rest', ledger) ∧ rest'.outcome? = none ∧
        Resumable issued ledger call rest' := by
  cases h with
  | fresh =>
    rcases call.step_script ledger with
      ⟨outcome, next, hends⟩ | ⟨id, s, last, hchanges, hfetch, hstep⟩
    · refine .inl ⟨outcome, next, hends, ?_⟩
      rw [← call.run_script_of_lawful hlawful hsound, Script.run_eq_of_step hends.1]
    · refine .inr ⟨_, hstep, hchanges.outcome?_last, .vetted hchanges ⟨?_, .inr ⟨s, hfetch, rfl⟩⟩⟩
      exact hlawful.issued_of_fetch hsound (by rw [hfetch]; simp)
  | @vetted id caller last hchanges hvetted =>
    refine .inl ?_
    rw [← call.run_script_of_lawful hlawful hsound, hchanges.script_eq]
    rcases hvetted.owned with hfetch | ⟨s, hfetch, rfl⟩
    · have hstep := hchanges.last_unknown hlawful hsound hfetch
      refine ⟨_, _, ⟨hstep, .nothing ledger⟩, ?_⟩
      rw [Script.run, hfetch]
      rfl
    · obtain ⟨next, hstep, -⟩ := hchanges.last_found hlawful hsound hfetch
      refine ⟨_, _, ⟨hstep, .change hchanges hfetch hstep⟩, ?_⟩
      have hcheck : checkCaller (some s) id s.owner = .ok () :=
        checkCaller_eq_ok_iff.mpr ⟨s, rfl, rfl⟩
      rw [Script.run, hfetch]
      dsimp only
      rw [hcheck]
      exact Script.run_eq_of_step hstep

end Resuming

/-! ## Orders -/

theorem serial_append {first last next : σ} {events : List Event} {event : Event}
    (h : Serial first events last)
    (hevent : settle last (event.call.perform last) = (event.outcome, next)) :
    Serial first (events ++ [event]) next := by
  induction events generalizing first with
  | nil =>
    obtain rfl : last = first := h
    show (settle last _).1 = _ ∧ next = (settle last _).2
    rw [hevent]
    exact ⟨rfl, rfl⟩
  | cons head events ih => exact ⟨h.1, ih h.2⟩

namespace System

variable {first : σ} {s s' : System σ} {order : List Nat}

/-- The call at a place is over, and nothing else has happened. -/
theorem Serializes.append (h : s.Serializes first order) {place : Nat} {event : Event}
    (hnew : s.event? place = none) (hevent : s'.event? place = some event)
    (hothers : ∀ k, k ≠ place → s'.event? k = s.event? k)
    (hbefore : ∀ j, ∀ k ∈ order, s'.Before j k → s.Before j k)
    (hnever : ∀ k, ¬ s.Before place k)
    (hends : settle s.ledger (event.call.perform s.ledger) = (event.outcome, s'.ledger)) :
    s'.Serializes first (order ++ [place]) := by
  have habsent : place ∉ order := by
    intro hmem
    have hover := (h.mem_iff place).mp hmem
    rw [hnew] at hover
    cases hover
  have hevents : order.filterMap s'.event? = order.filterMap s.event? :=
    List.filterMap_congr fun k hk => hothers k (ne_of_mem_of_not_mem hk habsent)
  refine ⟨?_, fun k => ?_, ?_, ?_⟩
  · refine List.nodup_append.mpr ⟨h.nodup, List.pairwise_singleton _ _, fun k hk i hi => ?_⟩
    rw [List.mem_singleton.mp hi]
    exact ne_of_mem_of_not_mem hk habsent
  · rw [List.mem_append, List.mem_singleton]
    by_cases hk : k = place
    · simp [hk, hevent]
    · rw [hothers k hk, ← h.mem_iff k]
      simp [hk]
  · refine List.pairwise_append.mpr ⟨?_, List.pairwise_singleton _ _, fun k hk i hi => ?_⟩
    · exact h.respects.imp_of_mem fun hi _ hnot hbefore' => hnot (hbefore _ _ hi hbefore')
    · rw [List.mem_singleton.mp hi]
      exact fun hbefore' => hnever k (hbefore place k hk hbefore')
  · have hlast : List.filterMap s'.event? [place] = [event] := by simp [hevent]
    rw [List.filterMap_append, hlast, hevents]
    exact serial_append h.serial hends

/-- No call is over that was not before. -/
theorem Serializes.keep (h : s.Serializes first order) (hevents : ∀ k, s'.event? k = s.event? k)
    (hbefore : ∀ j, ∀ k ∈ order, s'.Before j k → s.Before j k) (hledger : s'.ledger = s.ledger) :
    s'.Serializes first order := by
  refine ⟨h.nodup, fun k => ?_, ?_, ?_⟩
  · rw [hevents k]
    exact h.mem_iff k
  · exact h.respects.imp_of_mem fun hi _ hnot hbefore' => hnot (hbefore _ _ hi hbefore')
  · have hsame : s'.event? = s.event? := funext hevents
    rw [hsame, hledger]
    exact h.serial

/-! ## Moves -/

theorem event?_begin (s : System σ) (call : Call) (place : Nat) :
    (s.move (.begin call)).event? place =
      if place = s.calls.length then Progress.event? ⟨call, s.finished, call.script⟩
      else s.event? place := by
  show ((s.calls ++ [⟨call, s.finished, call.script⟩])[place]?).bind _ = _
  rcases Nat.lt_trichotomy place s.calls.length with hlt | rfl | hgt
  · rw [List.getElem?_append_left hlt, if_neg (Nat.ne_of_lt hlt)]
    rfl
  · simp
  · rw [if_neg (Nat.ne_of_gt hgt), event?, List.getElem?_eq_none (Nat.le_of_lt hgt),
      List.getElem?_eq_none (by simpa using Nat.succ_le_of_lt hgt)]

theorem getElem?_begin {call : Call} {k : Nat} {p : Progress}
    (h : (s.move (.begin call)).calls[k]? = some p) :
    s.calls[k]? = some p ∨ p = ⟨call, s.finished, call.script⟩ := by
  rcases Nat.lt_or_ge k s.calls.length with hlt | hge
  · exact .inl ((List.getElem?_append_left hlt).symm.trans h)
  · have hnew : [(⟨call, s.finished, call.script⟩ : Progress)][k - s.calls.length]? = some p :=
      (List.getElem?_append_right hge).symm.trans h
    exact .inr (List.mem_singleton.mp (List.mem_of_getElem? hnew))

theorem before_begin {call : Call} {j k : Nat} (hk : k < s.calls.length)
    (h : (s.move (.begin call)).Before j k) : s.Before j k := by
  obtain ⟨p, hp, hj⟩ := h
  refine ⟨p, ?_, hj⟩
  rw [← hp]
  exact (List.getElem?_append_left hk).symm

theorem move_advance {place : Nat} {p : Progress} (h : s.calls[place]? = some p) :
    s.move (.advance place) = ⟨(p.rest.step s.ledger).2,
      s.calls.set place { p with rest := (p.rest.step s.ledger).1 }⟩ := by
  unfold move
  dsimp only
  rw [h]

theorem event?_advance {place : Nat} {p : Progress} (h : s.calls[place]? = some p) (k : Nat) :
    (s.move (.advance place)).event? k =
      if k = place then Progress.event? { p with rest := (p.rest.step s.ledger).1 }
      else s.event? k := by
  rw [move_advance h]
  show ((s.calls.set place _)[k]?).bind _ = _
  by_cases hk : k = place
  · subst hk
    rw [if_pos rfl, List.getElem?_set_self (List.getElem?_eq_some_iff.mp h).1]
    rfl
  · rw [if_neg hk, List.getElem?_set_ne (Ne.symm hk)]
    rfl

theorem getElem?_advance {place : Nat} {p : Progress} (h : s.calls[place]? = some p) {k : Nat}
    {q : Progress} (hq : (s.move (.advance place)).calls[k]? = some q) :
    s.calls[k]? = some q ∨ k = place ∧ q = { p with rest := (p.rest.step s.ledger).1 } := by
  rw [move_advance h] at hq
  by_cases hk : k = place
  · subst hk
    rw [List.getElem?_set_self (List.getElem?_eq_some_iff.mp h).1] at hq
    exact .inr ⟨rfl, (Option.some.inj hq).symm⟩
  · rw [List.getElem?_set_ne (Ne.symm hk)] at hq
    exact .inl hq

theorem before_advance {place : Nat} {p : Progress} (hp : s.calls[place]? = some p) {j k : Nat}
    (h : (s.move (.advance place)).Before j k) : s.Before j k := by
  obtain ⟨q, hq, hj⟩ := h
  rcases getElem?_advance hp hq with hold | ⟨rfl, rfl⟩
  · exact ⟨q, hold, hj⟩
  · exact ⟨p, hp, hj⟩

/-! ## What every move keeps -/

/-- The ledger is in order, the calls that are over are put in order, none began behind one that is
    not over, and the others can be taken up where they stand. -/
structure Invariant (sound : σ → Prop) (issued : σ → Nat → Prop) (first : σ) (s : System σ)
    (order : List Nat) : Prop where
  sound : sound s.ledger
  serializes : s.Serializes first order
  earlier : ∀ j k, s.Before j k → (s.event? j).isSome = true
  resumable : ∀ (k : Nat) (p : Progress), s.calls[k]? = some p → p.rest.outcome? = none →
    Resumable issued s.ledger p.call p.rest

variable {sound : σ → Prop} {issued : σ → Nat → Prop}

theorem invariant_start (hsound : sound first) : Invariant sound issued first (start first) [] := by
  refine ⟨hsound, ⟨List.nodup_nil, ?_, List.Pairwise.nil, rfl⟩, ?_, ?_⟩
  · intro k
    simp [event?, start]
  · rintro j k ⟨p, hp, -⟩
    simp [start] at hp
  · intro k p hp
    simp [start] at hp

/-- Something happens at one place: the call there ends as it would if it were made now, or it is
    not over and the ledger stays. -/
theorem Invariant.proceed (h : Invariant sound issued first s order) (place : Nat)
    (hsound : sound s'.ledger) (hnew : s.event? place = none)
    (hothers : ∀ k, k ≠ place → s'.event? k = s.event? k)
    (hbefore : ∀ j, ∀ k ∈ order, s'.Before j k → s.Before j k)
    (hearlier : ∀ j k, s'.Before j k → (s.event? j).isSome = true)
    (hresumable : ∀ (k : Nat) (p : Progress), s'.calls[k]? = some p → p.rest.outcome? = none →
      Resumable issued s'.ledger p.call p.rest)
    (hplace : s'.event? place = none ∧ s'.ledger = s.ledger ∨
      ∃ event, s'.event? place = some event ∧
        settle s.ledger (event.call.perform s.ledger) = (event.outcome, s'.ledger)) :
    ∃ order', Invariant sound issued first s' order' := by
  have hne : ∀ j, (s.event? j).isSome = true → j ≠ place := by
    rintro j hover rfl
    rw [hnew] at hover
    cases hover
  have hearlier' : ∀ j k, s'.Before j k → (s'.event? j).isSome = true := by
    intro j k hjk
    have hover := hearlier j k hjk
    rw [hothers j (hne j hover)]
    exact hover
  rcases hplace with ⟨hopen, hledger⟩ | ⟨event, hevent, hends⟩
  · refine ⟨order, hsound, h.serializes.keep (fun k => ?_) hbefore hledger, hearlier', hresumable⟩
    by_cases hk : k = place
    · rw [hk, hopen, hnew]
    · exact hothers k hk
  · have hnever : ∀ k, ¬ s.Before place k := fun k hk => hne place (h.earlier place k hk) rfl
    exact ⟨_, hsound, h.serializes.append hnew hevent hothers hbefore hnever hends, hearlier',
      hresumable⟩

theorem Invariant.begin (hlawful : Ledger.Lawful sound issued)
    (h : Invariant sound issued first s order) (call : Call) :
    ∃ order', Invariant sound issued first (s.move (.begin call)) order' := by
  have hself := (event?_begin s call s.calls.length).trans (if_pos rfl)
  refine h.proceed s.calls.length h.sound ?_ ?_ ?_ ?_ ?_ ?_
  · rw [event?, List.getElem?_eq_none (Nat.le_refl _)]
    rfl
  · exact fun k hk => (event?_begin s call k).trans (if_neg hk)
  · exact fun j k hk => before_begin (lt_of_event? ((h.serializes.mem_iff k).mp hk))
  · rintro j k ⟨p, hp, hj⟩
    rcases getElem?_begin hp with hold | rfl
    · exact h.earlier j k ⟨p, hold, hj⟩
    · exact (List.mem_filter.mp hj).2
  · intro k p hp hrest
    rcases getElem?_begin hp with hold | rfl
    · exact h.resumable k p hold hrest
    · exact .fresh
  · rw [hself]
    unfold Progress.event?
    dsimp only
    cases houtcome : call.script.outcome? with
    | none => exact .inl ⟨rfl, rfl⟩
    | some outcome =>
      -- a call without a ledger step is over when it begins
      refine .inr ⟨⟨call, outcome⟩, rfl, ?_⟩
      rw [← call.run_script_of_lawful hlawful h.sound, Script.eq_done_of_outcome? houtcome]
      rfl

theorem move_advance_eq_self {place : Nat}
    (h : ∀ p, s.calls[place]? = some p → p.rest.outcome? ≠ none) :
    s.move (.advance place) = s := by
  cases hp : s.calls[place]? with
  | none =>
    unfold move
    dsimp only
    rw [hp]
  | some p =>
    obtain ⟨hplace, hget⟩ := List.getElem?_eq_some_iff.mp hp
    obtain ⟨outcome, houtcome⟩ := Option.ne_none_iff_exists'.mp (h p hp)
    have hdone := Script.eq_done_of_outcome? houtcome
    rw [move_advance hp, hdone]
    show (⟨s.ledger, s.calls.set place ⟨p.call, p.earlier, .done outcome⟩⟩ : System σ) = s
    rw [← hdone, ← hget, List.set_getElem_self]

/-- A call that is not over takes a step with one of its effects. -/
theorem Invariant.effect (hlawful : Ledger.Lawful sound issued)
    (h : Invariant sound issued first s order) {place : Nat} {p : Progress}
    (hp : s.calls[place]? = some p) (hopen : p.rest.outcome? = none) :
    p.call.Effect s.ledger (s.move (.advance place)).ledger := by
  rw [move_advance hp]
  rcases (h.resumable place p hp hopen).step hlawful h.sound with
    ⟨outcome, next, ⟨hstep, heffect⟩, -⟩ | ⟨rest, hstep, -⟩
  · rw [hstep]
    exact heffect
  · rw [hstep]
    exact .nothing s.ledger

theorem Invariant.advance (hlawful : Ledger.Lawful sound issued)
    (h : Invariant sound issued first s order) (place : Nat) :
    ∃ order', Invariant sound issued first (s.move (.advance place)) order' := by
  by_cases hopen : ∃ p, s.calls[place]? = some p ∧ p.rest.outcome? = none
  · obtain ⟨p, hp, hopen⟩ := hopen
    have heffect := h.effect hlawful hp hopen
    have hself := (event?_advance hp place).trans (if_pos rfl)
    have hstep := (h.resumable place p hp hopen).step hlawful h.sound
    refine h.proceed place (heffect.sound_next hlawful h.sound) ?_ ?_ ?_ ?_ ?_ ?_
    · rw [event?, hp]
      show p.rest.outcome?.map _ = none
      rw [hopen]
      rfl
    · exact fun k hk => (event?_advance hp k).trans (if_neg hk)
    · exact fun j k _ => before_advance hp
    · exact fun j k hjk => h.earlier j k (before_advance hp hjk)
    · intro k q hq hrest
      rcases getElem?_advance hp hq with hold | ⟨rfl, rfl⟩
      · exact (h.resumable k q hold hrest).effect hlawful h.sound heffect
      · rw [move_advance hp]
        rcases hstep with ⟨outcome, next, ⟨hstep, -⟩, -⟩ | ⟨rest, hstep, -, hresume⟩
        · rw [hstep] at hrest
          cases hrest
        · rw [hstep]
          exact hresume
    · rw [hself, move_advance hp]
      unfold Progress.event?
      dsimp only
      rcases hstep with ⟨outcome, next, ⟨hstep, -⟩, hends⟩ | ⟨rest, hstep, hrest, -⟩
      · rw [hstep]
        exact .inr ⟨⟨p.call, outcome⟩, rfl, hends⟩
      · rw [hstep]
        refine .inl ⟨?_, rfl⟩
        dsimp only
        rw [hrest]
        rfl
  · refine ⟨order, ?_⟩
    rw [move_advance_eq_self fun p hp hnone => hopen ⟨p, hp, hnone⟩]
    exact h

theorem exists_invariant (hlawful : Ledger.Lawful sound issued) (hsound : sound first)
    (moves : List Move) :
    ∃ order, Invariant sound issued first ((start first).run moves) order := by
  have hrun : ∀ (s : System σ) (order : List Nat), Invariant sound issued first s order →
      ∃ order', Invariant sound issued first (s.run moves) order' := by
    induction moves with
    | nil => exact fun s order h => ⟨order, h⟩
    | cons move moves ih =>
      intro s order h
      have hnext : ∃ order', Invariant sound issued first (s.move move) order' := by
        cases move with
        | begin call => exact h.begin hlawful call
        | advance place => exact h.advance hlawful place
      obtain ⟨order', hnext⟩ := hnext
      exact ih (s.move move) order' hnext
  exact hrun (start first) [] (invariant_start hsound)

/-- Whatever is found under a number is changed by its owner. -/
theorem Invariant.owner (hlawful : Ledger.Lawful sound issued)
    (h : Invariant sound issued first s order) {move : Move} {id : Nat}
    (hfound : Ledger.fetch s.ledger id ≠ .ok none)
    (hchanged : Ledger.fetch (s.move move).ledger id ≠ Ledger.fetch s.ledger id) :
    ∃ place p found handle, move = .advance place ∧ s.calls[place]? = some p ∧
      Ledger.fetch s.ledger id = .ok (some found) ∧
      Ledger.fetch s.ledger handle = .ok (some found) ∧
      (p.call = .activate handle found.owner ∨ p.call = .deactivate handle found.owner ∨
        p.call = .revoke handle found.owner) := by
  cases move with
  | begin call => exact absurd rfl hchanged
  | advance place =>
    by_cases hopen : ∃ p, s.calls[place]? = some p ∧ p.rest.outcome? = none
    · obtain ⟨p, hp, hopen⟩ := hopen
      have hissued := hlawful.issued_of_fetch h.sound hfound
      rcases (h.effect hlawful hp hopen).fetch hlawful h.sound hissued with
        hsame | ⟨found, handle, last, hchanges, hhandle, hid, -⟩
      · exact absurd hsame hchanged
      · refine ⟨place, p, found, handle, rfl, hp, hid, hhandle, ?_⟩
        generalize hcall : p.call = call at hchanges
        cases hchanges with
        | activate => exact .inl rfl
        | deactivate => exact .inr (.inl rfl)
        | revoke => exact .inr (.inr rfl)
    · rw [move_advance_eq_self fun p hp hnone => hopen ⟨p, hp, hnone⟩] at hchanged
      exact absurd rfl hchanged

end System

theorem Ledger.Lawful.linearizable {sound : σ → Prop} {issued : σ → Nat → Prop}
    (hlawful : Ledger.Lawful sound issued) {first : σ} (hsound : sound first) :
    Ledger.Linearizable first where
  exists_order := by
    intro moves
    obtain ⟨order, hinvariant⟩ := System.exists_invariant hlawful hsound moves
    exact ⟨order, hinvariant.serializes⟩
  owner := by
    intro moves move id s hfound hchanged
    obtain ⟨order, hinvariant⟩ := System.exists_invariant hlawful hsound moves
    exact hinvariant.owner hlawful hfound hchanged

theorem MemoryLedger.sound_empty : MemoryLedger.empty.Sound :=
  ⟨[], tells_empty⟩

theorem TableLedger.sound_empty : TableLedger.empty.Sound :=
  ⟨⟨[], tells_empty⟩, fun _ hvalue => nomatch hvalue⟩

/-! ## How many calls there is room for -/

/-- Calls that are made one by one tell what the ledger of a process holds. -/
theorem Told.serial {before events : List Event} {m last : MemoryLedger} (h : Told before m)
    (hserial : Serial m events last) : Told (before ++ events) last := by
  induction events generalizing before m with
  | nil =>
    obtain rfl : last = m := hserial
    rwa [List.append_nil]
  | cons e events ih =>
    obtain ⟨houtcome, hrest⟩ := hserial
    rw [settle_perform] at houtcome hrest
    have hnext := h.perform e.call
    dsimp only at houtcome hrest
    rw [houtcome] at hnext hrest
    have htold := ih hnext hrest
    rwa [List.append_assoc] at htold

/-- No call is refused for want of a number as long as there are fewer calls than numbers. -/
theorem Told.ne_overflow {before events : List Event} {m last : MemoryLedger} (h : Told before m)
    (hserial : Serial m events last) (hroom : before.length + events.length < bitBound 64)
    {e : Event} (he : e ∈ events) : e.outcome ≠ .error (.queryFailed .overflow) := by
  obtain ⟨front, back, rfl⟩ := List.append_of_mem he
  have hsplit : ∃ m', Told (before ++ front) m' ∧ e.outcome = e.call.answer m' := by
    clear he hroom
    induction front generalizing before m with
    | nil =>
      refine ⟨m, by rwa [List.append_nil], ?_⟩
      have houtcome := hserial.1
      rw [settle_perform] at houtcome
      exact houtcome.symm
    | cons first front ih =>
      have hfirst : Told (before ++ [first]) (settle m (first.call.perform m)).2 :=
        h.serial ⟨hserial.1, rfl⟩
      obtain ⟨m', htold, houtcome⟩ := ih hfirst hserial.2
      rw [List.append_assoc] at htold
      exact ⟨m', htold, houtcome⟩
  obtain ⟨m', htold, houtcome⟩ := hsplit
  have hlast := htold.lastId
  have hgranted : (granted (before ++ front)).length ≤ (before ++ front).length :=
    List.length_filterMap_le _ _
  rw [houtcome]
  refine answer_ne_overflow ?_ e.call
  unfold MemoryLedger.HasRoom
  simp only [List.length_append, List.length_cons] at hgranted hroom
  omega

namespace System

theorem length_calls_move (s : System σ) (move : Move) :
    (s.move move).calls.length ≤ s.calls.length + 1 := by
  cases move with
  | begin call => exact (List.length_append ..).le
  | advance place =>
    unfold System.move
    dsimp only
    split
    · exact Nat.le_succ _
    · exact (List.length_set ..).trans_le (Nat.le_succ _)

theorem length_calls_run (s : System σ) (moves : List Move) :
    (s.run moves).calls.length ≤ s.calls.length + moves.length := by
  induction moves generalizing s with
  | nil => exact Nat.le_refl _
  | cons move moves ih =>
    have hmove := s.length_calls_move move
    have hrest := ih (s.move move)
    rw [List.length_cons]
    exact hrest.trans (by omega)

/-- The order of calls that are over is no longer than there are calls. -/
theorem Serializes.length_le {first : σ} {s : System σ} {order : List Nat}
    (h : s.Serializes first order) : order.length ≤ s.calls.length := by
  have hsubset : order ⊆ List.range s.calls.length := fun place hplace =>
    List.mem_range.mpr (lt_of_event? ((h.mem_iff place).mp hplace))
  have hlength := (List.subperm_of_subset h.nodup hsubset).length_le
  rwa [List.length_range] at hlength

end System

/-- In fewer moves than there are numbers, no call is refused for want of one. -/
theorem ne_overflow_of_run {moves : List Move} (hmoves : moves.length < bitBound 64) {place : Nat}
    {e : Event} (he : ((System.start MemoryLedger.empty).run moves).event? place = some e) :
    e.outcome ≠ .error (.queryFailed .overflow) := by
  obtain ⟨order, horder⟩ :=
    (MemoryLedger.lawful.linearizable MemoryLedger.sound_empty).exists_order moves
  have hcalls : order.length ≤ moves.length := by
    have hlength := System.length_calls_run (System.start MemoryLedger.empty) moves
    exact horder.length_le.trans (hlength.trans_eq (Nat.zero_add _))
  have hevents := List.length_filterMap_le
    (System.event? ((System.start MemoryLedger.empty).run moves)) order
  have hplace : place ∈ order := (horder.mem_iff place).mpr (by rw [he]; rfl)
  refine told_empty.ne_overflow horder.serial ?_ (List.mem_filterMap.mpr ⟨place, hplace, he⟩)
  rw [List.length_nil]
  omega

/-- On the ledger of a process and on that of a database, calls of any number of clients whose
    ledger steps alternate in any order leave the ledger and the outcomes that the same calls
    leave one by one, in an order that keeps calls apart that do not overlap; and nobody but its
    owner changes or removes a subscription. In a process there is a number for each of fewer
    calls than there are numbers. -/
theorem calls_linearizable :
    Ledger.Linearizable MemoryLedger.empty ∧ Ledger.Linearizable TableLedger.empty ∧
      ∀ (moves : List Move) (place : Nat) (e : Event), moves.length < bitBound 64 →
        ((System.start MemoryLedger.empty).run moves).event? place = some e →
          e.outcome ≠ .error (.queryFailed .overflow) :=
  ⟨MemoryLedger.lawful.linearizable MemoryLedger.sound_empty,
    TableLedger.lawful.linearizable TableLedger.sound_empty,
    fun _ _ _ hmoves he => ne_overflow_of_run hmoves he⟩

end Autopilot
