/-
  Readers as grammars: which bytes a reader takes for which value.

  `Recognizes r spells` says that the reader `r` takes bytes from the front of its input
  exactly when they spell a value, that it returns this value, and that it counts the bytes.
  It is one statement for both directions: what is spelled is read back, and nothing else is
  taken. Readers that are put together recognize what their parts do, one behind the other
  (`recognizes_bind`), so a format is described by following its reader.
-/
import Autopilot.Proofs.Bytes
import Autopilot.Proofs.Outcome
import Autopilot.Wire.Decode

namespace Autopilot.Wire

variable {α β : Type}

/-- The reader takes the bytes that spell a value, and nothing else. -/
def Recognizes (r : Reader α) (spells : α → List UInt8 → Prop) : Prop :=
  ∀ input a next, r input = .ok (a, next) ↔
    ∃ bytes, spells a bytes ∧ input.rest = bytes ++ next.rest ∧
      next.offset = input.offset + bytes.length

/-! ## Putting readers together -/

theorem Recognizes.congr {r : Reader α} {spells spells' : α → List UInt8 → Prop}
    (h : Recognizes r spells) (heq : ∀ a bytes, spells a bytes ↔ spells' a bytes) :
    Recognizes r spells' := by
  intro input a next
  rw [h input a next]
  simp only [heq]

theorem recognizes_pure (a : α) :
    Recognizes (pure a : Reader α) (fun b bytes => b = a ∧ bytes = []) := by
  intro input b next
  constructor
  · intro h
    cases h
    exact ⟨[], ⟨rfl, rfl⟩, rfl, rfl⟩
  · rintro ⟨bytes, ⟨rfl, rfl⟩, hrest, hoffset⟩
    obtain ⟨rest, offset⟩ := input
    obtain ⟨rest', offset'⟩ := next
    cases hrest
    cases hoffset
    rfl

/-- A reader that fails on every input takes no bytes. -/
theorem recognizes_nothing {r : Reader α} (h : ∀ input, ∃ fault, r input = .error fault) :
    Recognizes r (fun _ _ => False) := by
  intro input a next
  obtain ⟨fault, hfault⟩ := h input
  rw [hfault]
  simp

theorem recognizes_fail (offset : Nat) (cause : WireDefect) :
    Recognizes (Reader.fail offset cause : Reader α) (fun _ _ => False) :=
  recognizes_nothing fun _ => ⟨_, rfl⟩

theorem recognizes_bind {r : Reader α} {f : α → Reader β} {first : α → List UInt8 → Prop}
    {second : α → β → List UInt8 → Prop} (hr : Recognizes r first)
    (hf : ∀ a, Recognizes (f a) (second a)) :
    Recognizes (r >>= f) (fun b bytes =>
      ∃ a front back, first a front ∧ second a b back ∧ bytes = front ++ back) := by
  intro input b next
  rw [state_bind_eq_ok]
  constructor
  · rintro ⟨a, mid, hread, hthen⟩
    obtain ⟨front, hfront, hrest, hoffset⟩ := (hr input a mid).mp hread
    obtain ⟨back, hback, hrest', hoffset'⟩ := (hf a mid b next).mp hthen
    refine ⟨front ++ back, ⟨a, front, back, hfront, hback, rfl⟩, ?_, ?_⟩
    · rw [hrest, hrest', List.append_assoc]
    · rw [hoffset', hoffset, List.length_append, Nat.add_assoc]
  · rintro ⟨_, ⟨a, front, back, hfront, hback, rfl⟩, hrest, hoffset⟩
    refine ⟨a, ⟨back ++ next.rest, input.offset + front.length⟩, ?_, ?_⟩
    · refine (hr input a _).mpr ⟨front, hfront, ?_, rfl⟩
      rw [hrest, List.append_assoc]
    · refine (hf a _ b next).mpr ⟨back, hback, rfl, ?_⟩
      rw [hoffset, List.length_append, Nat.add_assoc]

theorem recognizes_map {r : Reader α} {spells : α → List UInt8 → Prop} (h : Recognizes r spells)
    (f : α → β) :
    Recognizes (do let a ← r; pure (f a)) (fun b bytes => ∃ a, b = f a ∧ spells a bytes) := by
  refine (recognizes_bind h fun a => recognizes_pure (f a)).congr fun b bytes => ?_
  constructor
  · rintro ⟨a, front, _, hfront, ⟨rfl, rfl⟩, rfl⟩
    exact ⟨a, rfl, by rwa [List.append_nil]⟩
  · rintro ⟨a, rfl, hbytes⟩
    exact ⟨a, bytes, [], hbytes, ⟨rfl, rfl⟩, (List.append_nil _).symm⟩

/-- Looking at the offset takes no bytes. -/
theorem recognizes_offset_bind {f : Nat → Reader β} {spells : β → List UInt8 → Prop}
    (h : ∀ offset, Recognizes (f offset) spells) :
    Recognizes (Reader.offset >>= f) spells := by
  intro input b next
  rw [← h input.offset input b next, state_bind_eq_ok]
  constructor
  · rintro ⟨a, mid, hoffset, hf⟩
    cases hoffset
    exact hf
  · intro hf
    exact ⟨input.offset, input, rfl, hf⟩

/-- A condition in front of a reader, with a failure if it does not hold. -/
theorem recognizes_ite {c : Prop} [Decidable c] {r r' : Reader α}
    {spells spells' : α → List UInt8 → Prop} (h : c → Recognizes r spells)
    (h' : ¬ c → Recognizes r' spells') :
    Recognizes (if c then r else r') (fun a bytes =>
      (c ∧ spells a bytes) ∨ (¬ c ∧ spells' a bytes)) := by
  by_cases hc : c
  · rw [if_pos hc]
    exact (h hc).congr (by simp [hc])
  · rw [if_neg hc]
    exact (h' hc).congr (by simp [hc])

/-- A look-up that takes no bytes, with a failure where nothing is found. -/
theorem recognizes_found {r : Reader α} (found : Option α) (offset : Nat) (cause : WireDefect)
    (hsome : ∀ a, found = some a → r = pure a)
    (hnone : found = none → r = Reader.fail offset cause) :
    Recognizes r (fun a bytes => found = some a ∧ bytes = []) := by
  cases found with
  | some a =>
    rw [hsome a rfl]
    refine (recognizes_pure a).congr fun b bytes => and_congr_left' ?_
    rw [Option.some.injEq, eq_comm]
  | none =>
    rw [hnone rfl]
    exact (recognizes_fail offset cause).congr (by simp)

/-! ## Bytes, numbers and texts -/

theorem recognizes_take (n : Nat) :
    Recognizes (Reader.take n) (fun front bytes => front.length = n ∧ bytes = front) := by
  intro input front next
  unfold Reader.take
  cases htake : takeExactly? n input.rest with
  | none =>
    simp only [reduceCtorEq, false_iff]
    rintro ⟨_, ⟨hlength, rfl⟩, hrest, -⟩
    rw [takeExactly?_eq_some_iff.mpr ⟨hlength, hrest⟩] at htake
    cases htake
  | some parts =>
    obtain ⟨front', rest⟩ := parts
    obtain ⟨hlength', hrest'⟩ := takeExactly?_eq_some_iff.mp htake
    constructor
    · intro h
      cases h
      exact ⟨_, ⟨hlength', rfl⟩, hrest', by rw [hlength']⟩
    · rintro ⟨_, ⟨hlength, rfl⟩, hrest, hoffset⟩
      rw [takeExactly?_eq_some_iff.mpr ⟨hlength, hrest⟩] at htake
      cases htake
      obtain ⟨rest', offset'⟩ := next
      rw [hlength] at hoffset
      cases hoffset
      rfl

theorem recognizes_byte : Recognizes Reader.byte (fun b bytes => bytes = [b]) := by
  unfold Reader.byte
  refine (recognizes_bind (recognizes_take 1) fun _ => recognizes_pure _).congr ?_
  intro b bytes
  constructor
  · rintro ⟨_, front, _, ⟨hlength, rfl⟩, ⟨rfl, rfl⟩, rfl⟩
    obtain ⟨x, rfl⟩ := List.length_eq_one_iff.mp hlength
    rfl
  · rintro rfl
    exact ⟨[b], [b], [], ⟨rfl, rfl⟩, ⟨rfl, rfl⟩, rfl⟩

theorem recognizes_short :
    Recognizes Reader.short (fun n bytes => n < 65536 ∧ bytes = bigEndian 2 n) := by
  unfold Reader.short
  refine (recognizes_bind (recognizes_take 2) fun _ => recognizes_pure _).congr ?_
  intro n bytes
  constructor
  · rintro ⟨_, front, _, ⟨hlength, rfl⟩, ⟨rfl, rfl⟩, rfl⟩
    have hlt := ofBigEndian_lt front
    have hback := bigEndian_ofBigEndian front
    rw [hlength] at hlt hback
    exact ⟨hlt, by rw [hback, List.append_nil]⟩
  · rintro ⟨hlt, rfl⟩
    refine ⟨bigEndian 2 n, _, [], ⟨length_bigEndian 2 n, rfl⟩, ⟨?_, rfl⟩, ?_⟩
    · exact (ofBigEndian_bigEndian hlt).symm
    · rw [List.append_nil]

theorem recognizes_text (n : Nat) :
    Recognizes (Reader.text n) (fun s bytes => s.utf8ByteSize = n ∧ bytes = utf8 s) := by
  unfold Reader.text
  refine recognizes_offset_bind fun start => ?_
  refine (recognizes_bind (recognizes_take n) fun front =>
    recognizes_found (ofUtf8? front) start .notUtf8 (fun s h => by rw [h])
      fun h => by rw [h]).congr fun s bytes => ?_
  constructor
  · rintro ⟨front, _, _, ⟨hlength, rfl⟩, ⟨hfront, rfl⟩, rfl⟩
    obtain rfl := ofUtf8?_eq_some_iff.mp hfront
    rw [length_utf8] at hlength
    exact ⟨hlength, List.append_nil _⟩
  · rintro ⟨rfl, rfl⟩
    exact ⟨utf8 s, _, [], ⟨length_utf8 s, rfl⟩, ⟨ofUtf8?_eq_some_iff.mpr rfl, rfl⟩,
      (List.append_nil _).symm⟩

theorem recognizes_shortText :
    Recognizes Reader.shortText (fun s bytes => s.utf8ByteSize ≤ 255 ∧ bytes = shortText s) := by
  unfold Reader.shortText
  refine (recognizes_bind recognizes_byte fun b => recognizes_text b.toNat).congr ?_
  intro s bytes
  unfold shortText
  constructor
  · rintro ⟨b, _, _, rfl, ⟨hlength, rfl⟩, rfl⟩
    rw [hlength, UInt8.ofNat_toNat]
    exact ⟨Nat.le_of_lt_succ b.toNat_lt, rfl⟩
  · rintro ⟨hle, rfl⟩
    exact ⟨UInt8.ofNat s.utf8ByteSize, [UInt8.ofNat s.utf8ByteSize], utf8 s, rfl,
      ⟨(toNat_ofNat_of_le hle).symm, rfl⟩, rfl⟩

/-! ## Lists -/

/-- The bytes are spellings of the items, one behind the other. -/
def SpellsAll (spells : α → List UInt8 → Prop) (xs : List α) (bytes : List UInt8) : Prop :=
  ∃ parts, List.Forall₂ spells xs parts ∧ bytes = parts.flatten

theorem recognizes_times {r : Reader α} {spells : α → List UInt8 → Prop}
    (h : Recognizes r spells) (n : Nat) :
    Recognizes (Reader.times r n) (fun xs bytes => xs.length = n ∧ SpellsAll spells xs bytes) := by
  induction n with
  | zero =>
    unfold Reader.times
    refine (recognizes_pure []).congr fun xs bytes => ?_
    constructor
    · rintro ⟨rfl, rfl⟩
      exact ⟨rfl, [], .nil, rfl⟩
    · rintro ⟨hlength, parts, hparts, rfl⟩
      cases List.length_eq_zero_iff.mp hlength
      cases hparts
      exact ⟨rfl, rfl⟩
  | succ n ih =>
    unfold Reader.times
    refine (recognizes_bind h fun x => recognizes_bind ih fun xs =>
      recognizes_pure (x :: xs)).congr fun xs bytes => ?_
    constructor
    · rintro ⟨x, front, _, hx, ⟨xs, _, _, ⟨rfl, parts, hparts, rfl⟩, ⟨rfl, rfl⟩, rfl⟩, rfl⟩
      refine ⟨rfl, front :: parts, .cons hx hparts, ?_⟩
      rw [List.flatten_cons, List.append_nil]
    · rintro ⟨hlength, parts, hparts, rfl⟩
      cases hparts with
      | nil => cases hlength
      | @cons x front xs parts hx hparts =>
        refine ⟨x, front, _, hx, ⟨xs, _, [], ⟨Nat.succ.inj hlength, parts, hparts, rfl⟩,
          ⟨rfl, rfl⟩, rfl⟩, ?_⟩
        rw [List.flatten_cons, List.append_nil]

/-- The bytes are the number of the items in one byte and their spellings. -/
def SpellsCounted (spells : α → List UInt8 → Prop) (xs : List α) (bytes : List UInt8) : Prop :=
  xs.length ≤ 255 ∧ ∃ body, SpellsAll spells xs body ∧ bytes = UInt8.ofNat xs.length :: body

theorem recognizes_counted {r : Reader α} {spells : α → List UInt8 → Prop}
    (h : Recognizes r spells) : Recognizes (Reader.counted r) (SpellsCounted spells) := by
  unfold Reader.counted
  refine (recognizes_bind recognizes_byte fun b => recognizes_times h b.toNat).congr ?_
  intro xs bytes
  constructor
  · rintro ⟨b, _, body, rfl, ⟨hlength, hbody⟩, rfl⟩
    refine ⟨?_, body, hbody, ?_⟩
    · rw [hlength]
      exact Nat.le_of_lt_succ b.toNat_lt
    · rw [hlength, UInt8.ofNat_toNat]
      rfl
  · rintro ⟨hle, body, hbody, rfl⟩
    exact ⟨UInt8.ofNat xs.length, _, body, rfl, ⟨(toNat_ofNat_of_le hle).symm, hbody⟩, rfl⟩

/-- Items that are spelled in one way only are spelled as they are written. -/
theorem spellsAll_iff {spells : α → List UInt8 → Prop} {writable : α → Prop}
    {write : α → List UInt8} {xs : List α}
    (h : ∀ x ∈ xs, ∀ bytes, spells x bytes ↔ writable x ∧ bytes = write x) (bytes : List UInt8) :
    SpellsAll spells xs bytes ↔ (∀ x ∈ xs, writable x) ∧ bytes = xs.flatMap write := by
  unfold SpellsAll
  induction xs generalizing bytes with
  | nil =>
    constructor
    · rintro ⟨parts, hparts, rfl⟩
      cases hparts
      exact ⟨by simp, rfl⟩
    · rintro ⟨-, rfl⟩
      exact ⟨[], .nil, rfl⟩
  | cons x xs ih =>
    have hhead := h x List.mem_cons_self
    have htail := ih fun y hy => h y (List.mem_cons_of_mem _ hy)
    rw [List.forall_mem_cons, List.flatMap_cons]
    constructor
    · rintro ⟨parts, hparts, rfl⟩
      cases hparts with
      | @cons _ front _ rest hfront hrest =>
        obtain ⟨hx, rfl⟩ := (hhead front).mp hfront
        obtain ⟨hxs, hflat⟩ := (htail rest.flatten).mp ⟨rest, hrest, rfl⟩
        exact ⟨⟨hx, hxs⟩, by rw [List.flatten_cons, hflat]⟩
    · rintro ⟨⟨hx, hxs⟩, rfl⟩
      obtain ⟨rest, hrest, hflat⟩ := (htail _).mpr ⟨hxs, rfl⟩
      refine ⟨write x :: rest, .cons ((hhead _).mpr ⟨hx, rfl⟩) hrest, ?_⟩
      rw [List.flatten_cons, hflat]

theorem spellsCounted_iff {spells : α → List UInt8 → Prop} {writable : α → Prop}
    {write : α → List UInt8} {xs : List α}
    (h : ∀ x ∈ xs, ∀ bytes, spells x bytes ↔ writable x ∧ bytes = write x) (bytes : List UInt8) :
    SpellsCounted spells xs bytes ↔
      (xs.length ≤ 255 ∧ ∀ x ∈ xs, writable x) ∧ bytes = counted write xs := by
  unfold SpellsCounted counted
  constructor
  · rintro ⟨hlength, body, hbody, rfl⟩
    obtain ⟨hxs, rfl⟩ := (spellsAll_iff h body).mp hbody
    exact ⟨⟨hlength, hxs⟩, rfl⟩
  · rintro ⟨⟨hlength, hxs⟩, rfl⟩
    exact ⟨hlength, _, (spellsAll_iff h _).mpr ⟨hxs, rfl⟩, rfl⟩

end Autopilot.Wire
