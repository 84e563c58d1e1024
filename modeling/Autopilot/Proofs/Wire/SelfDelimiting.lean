/-
  Cut and extended inputs: what reading does when bytes are missing, and when there are too many.

  A reader that fails either ran out of bytes, or has found a fault that no further bytes mend
  (`Settles`). Readers that are put together settle if their parts do, so the statement goes
  through the format as the grammar of `Wire.Format` does. As the reader of a whole strategy
  succeeds on the encoding, it cannot have settled on a fault anywhere before its end.

  Proved here: no fault of decoding has an offset beyond the bytes (`foundBy_decode`), a cut
  encoding is found to be truncated at an offset within what is left of it, and an extended one to
  go on where the encoding ends (`decode_cut_or_extended`).
-/
import Autopilot.Proofs.Strategy.Faults
import Autopilot.Proofs.Wire.RoundTrip

namespace Autopilot.Wire

variable {α β : Type}

/-! ## Inputs that go on -/

namespace Input

/-- The offset at which the bytes end. -/
def stop (input : Input) : Nat :=
  input.offset + input.rest.length

/-- The input with more bytes behind it. -/
def followedBy (input : Input) (more : List UInt8) : Input :=
  ⟨input.rest ++ more, input.offset⟩

end Input

/-- A reader only goes forward, up to where the bytes end. -/
theorem Recognizes.stop_eq {r : Reader α} {spells : α → List UInt8 → Prop} (h : Recognizes r spells)
    {input next : Input} {a : α} (hread : r input = .ok (a, next)) :
    input.offset ≤ next.offset ∧ next.stop = input.stop := by
  obtain ⟨bytes, -, hrest, hoffset⟩ := (h input a next).mp hread
  unfold Input.stop
  rw [hrest, hoffset, List.length_append]
  omega

/-- What is read does not depend on the bytes behind it. -/
theorem Recognizes.followedBy {r : Reader α} {spells : α → List UInt8 → Prop}
    (h : Recognizes r spells) {input next : Input} {a : α} (hread : r input = .ok (a, next))
    (more : List UInt8) : r (input.followedBy more) = .ok (a, next.followedBy more) := by
  obtain ⟨bytes, hbytes, hrest, hoffset⟩ := (h input a next).mp hread
  refine (h _ _ _).mpr ⟨bytes, hbytes, ?_, hoffset⟩
  unfold Input.followedBy
  rw [hrest, List.append_assoc]

/-! ## Faults of readers -/

/-- At an offset up to `stop` more bytes were needed than there are up to `stop`. -/
def RanOut (stop : Nat) (fault : Fault) : Prop :=
  ∃ offset needed, fault = .undecodable offset (.truncated needed) ∧
    offset ≤ stop ∧ stop < offset + needed

/-- If the fault has an offset, it is one up to `stop`. -/
def FoundBy (stop : Nat) (fault : Fault) : Prop :=
  ∀ offset cause, fault = .undecodable offset cause → offset ≤ stop

theorem RanOut.foundBy {stop : Nat} {fault : Fault} (h : RanOut stop fault) :
    FoundBy stop fault := by
  obtain ⟨offset, needed, rfl, hle, -⟩ := h
  intro offset' cause heq
  cases heq
  exact hle

/-- From an offset on, the reader fails because the bytes run out, or with a fault that it has
    found by their end and that it finds whatever bytes follow. -/
def Settles (start : Nat) (r : Reader α) : Prop :=
  ∀ input fault, start ≤ input.offset → r input = .error fault →
    RanOut input.stop fault ∨
      FoundBy input.stop fault ∧ ∀ more, r (input.followedBy more) = .error fault

/-! ## Putting readers together -/

theorem settles_pure (start : Nat) (a : α) : Settles start (pure a : Reader α) := by
  intro input fault _ h
  cases h

theorem settles_fail {start offset : Nat} (h : offset ≤ start) (cause : WireDefect) :
    Settles start (Reader.fail offset cause : Reader α) := by
  intro input fault hstart hfault
  cases hfault
  refine .inr ⟨?_, fun _ => rfl⟩
  intro offset' cause' heq
  cases heq
  unfold Input.stop
  omega

theorem settles_bind {start : Nat} {r : Reader α} {f : α → Reader β}
    {spells : α → List UInt8 → Prop} (hspells : Recognizes r spells) (hr : Settles start r)
    (hf : ∀ a, Settles start (f a)) : Settles start (r >>= f) := by
  intro input fault hstart hfault
  rcases state_bind_eq_error.mp hfault with hread | ⟨a, mid, hread, hthen⟩
  · refine (hr input fault hstart hread).imp_right fun hsettled => ⟨hsettled.1, fun more => ?_⟩
    exact state_bind_eq_error.mpr (.inl (hsettled.2 more))
  · obtain ⟨hforward, hstop⟩ := hspells.stop_eq hread
    rw [← hstop]
    refine (hf a mid fault (by omega) hthen).imp_right fun hsettled =>
      ⟨hsettled.1, fun more => ?_⟩
    exact state_bind_eq_error.mpr (.inr ⟨a, _, hspells.followedBy hread more, hsettled.2 more⟩)

theorem settles_map {start : Nat} {r : Reader α} {spells : α → List UInt8 → Prop}
    (hspells : Recognizes r spells) (hr : Settles start r) (f : α → β) :
    Settles start (do let a ← r; pure (f a)) :=
  settles_bind hspells hr fun a => settles_pure start (f a)

/-- Behind a look at the offset, faults may be placed there. -/
theorem settles_offset_bind {start : Nat} {f : Nat → Reader β} (h : ∀ here, Settles here (f here)) :
    Settles start (Reader.offset >>= f) := by
  intro input fault _ hfault
  exact h input.offset input fault (Nat.le_refl _) hfault

theorem settles_ite {c : Prop} [Decidable c] {start : Nat} {r r' : Reader α} (h : Settles start r)
    (h' : Settles start r') : Settles start (if c then r else r') := by
  split
  · exact h
  · exact h'

/-! ## Bytes, numbers and texts -/

theorem settles_take (start n : Nat) : Settles start (Reader.take n) := by
  intro input fault _ h
  unfold Reader.take at h
  split at h
  · cases h
  · next hnone =>
    cases h
    have hshort := takeExactly?_eq_none_iff.mp hnone
    refine .inl ⟨_, _, rfl, ?_, ?_⟩
    · exact Nat.le_add_right _ _
    · unfold Input.stop
      omega

theorem settles_byte (start : Nat) : Settles start Reader.byte :=
  settles_map (recognizes_take 1) (settles_take start 1) _

theorem settles_short (start : Nat) : Settles start Reader.short :=
  settles_map (recognizes_take 2) (settles_take start 2) _

theorem settles_text (start n : Nat) : Settles start (Reader.text n) := by
  refine settles_offset_bind fun here =>
    settles_bind (recognizes_take n) (settles_take here n) fun bytes => ?_
  cases ofUtf8? bytes with
  | some s => exact settles_pure here s
  | none => exact settles_fail (Nat.le_refl here) .notUtf8

theorem settles_shortText (start : Nat) : Settles start Reader.shortText :=
  settles_bind recognizes_byte (settles_byte start) fun length =>
    settles_text start length.toNat

/-! ## Lists -/

theorem settles_times {start : Nat} {r : Reader α} {spells : α → List UInt8 → Prop}
    (hspells : Recognizes r spells) (hr : Settles start r) (n : Nat) :
    Settles start (Reader.times r n) := by
  induction n with
  | zero => exact settles_pure start []
  | succ n ih =>
    exact settles_bind hspells hr fun x => settles_map (recognizes_times hspells n) ih (x :: ·)

theorem settles_counted {start : Nat} {r : Reader α} {spells : α → List UInt8 → Prop}
    (hspells : Recognizes r spells) (hr : Settles start r) : Settles start (Reader.counted r) :=
  settles_bind recognizes_byte (settles_byte start) fun count =>
    settles_times hspells hr count.toNat

/-! ## Types and values -/

theorem settles_slotType (start : Nat) : Settles start Reader.slotType := by
  refine settles_offset_bind fun here =>
    settles_bind recognizes_byte (settles_byte here) fun tag => ?_
  refine settles_ite ?_ (settles_ite (settles_pure here _) (settles_ite (settles_pure here _)
    (settles_ite (settles_pure here _) (settles_fail (Nat.le_refl here) _))))
  refine settles_bind recognizes_short (settles_short here) fun width => ?_
  dsimp only
  cases SlotType.uint? (UInt16.ofNat width) with
  | some type => exact settles_pure here type
  | none => exact settles_fail (Nat.le_refl here) _

theorem settles_value (start : Nat) : Settles start Reader.value := by
  refine settles_bind recognizes_slotType (settles_slotType start) fun type =>
    settles_offset_bind fun here => ?_
  cases type with
  | uint bits =>
    exact settles_bind (recognizes_take 32) (settles_take here 32) fun bytes =>
      settles_ite (settles_pure here _) (settles_fail (Nat.le_refl here) _)
  | address => exact settles_map (recognizes_take 20) (settles_take here 20) _
  | bool =>
    exact settles_bind recognizes_byte (settles_byte here) fun flag =>
      settles_ite (settles_pure here _)
        (settles_ite (settles_pure here _) (settles_fail (Nat.le_refl here) _))
  | bytes32 => exact settles_map (recognizes_take 32) (settles_take here 32) _

/-! ## Operations -/

theorem settles_slotName (start : Nat) (slots : List String) :
    Settles start (Reader.slotName slots) := by
  refine settles_offset_bind fun here =>
    settles_bind recognizes_byte (settles_byte here) fun place =>
      settles_ite (settles_pure here proxySlot) ?_
  cases slots[place.toNat]? with
  | some name => exact settles_pure here name
  | none => exact settles_fail (Nat.le_refl here) _

theorem settles_placeholder (start : Nat) (next : UInt8) :
    Settles start (Reader.placeholder next) :=
  settles_offset_bind fun here =>
    settles_bind recognizes_byte (settles_byte here) fun _ =>
      settles_ite (settles_shortText here) (settles_fail (Nat.le_refl here) _)

theorem settles_binding (start : Nat) (slots : List String) (next : UInt8) :
    Settles start (Reader.binding slots next) := by
  refine settles_offset_bind fun here =>
    settles_bind recognizes_byte (settles_byte here) fun tag => ?_
  cases Binding.Kind.ofTag? tag with
  | none => exact settles_fail (Nat.le_refl here) _
  | some kind =>
    cases kind with
    | const => exact settles_map recognizes_value (settles_value here) _
    | subSlot => exact settles_map (recognizes_slotName slots) (settles_slotName here slots) _
    | placeholder =>
      exact settles_map (recognizes_placeholder next) (settles_placeholder here next) _
    | piped => exact settles_map recognizes_byte (settles_byte here) _

theorem settles_bindings (start : Nat) (slots : List String) (next : UInt8) (n : Nat) :
    Settles start (Reader.bindings slots next n) := by
  induction n generalizing next with
  | zero => exact settles_pure start []
  | succ n ih =>
    exact settles_bind (recognizes_binding slots next) (settles_binding start slots next)
      fun b => settles_map (recognizes_bindings slots _ n) (ih _) (b :: ·)

/-- An unknown operation has no offset, and is unknown whatever follows. -/
theorem settles_throw_unknownOperation (start : Nat) (name : String) :
    Settles start (throw (.unknownOperation name) : Reader α) := by
  intro input fault _ h
  cases h
  refine .inr ⟨?_, fun _ => rfl⟩
  intro offset cause heq
  cases heq

theorem settles_operation (start : Nat) (kind : OperationKind) (slots : List String) :
    Settles start (Reader.operation kind slots) := by
  refine settles_offset_bind fun here =>
    settles_bind (recognizes_take 4) (settles_take here 4) fun id =>
      settles_bind recognizes_shortText (settles_shortText here) fun name => ?_
  refine settles_ite (settles_fail (Nat.le_refl here) _)
    (settles_ite (settles_throw_unknownOperation here name) ?_)
  exact settles_bind recognizes_byte (settles_byte here) fun count =>
    settles_map (recognizes_bindings slots 0 count.toNat)
      (settles_bindings here slots 0 count.toNat) _

/-! ## Strategies -/

theorem settles_subSlot (start : Nat) : Settles start Reader.subSlot :=
  settles_bind recognizes_shortText (settles_shortText start) fun _ =>
    settles_map recognizes_slotType (settles_slotType start) _

theorem settles_knownVersion (start : Nat) : Settles start Reader.knownVersion :=
  settles_bind recognizes_byte (settles_byte start) fun _ =>
    settles_ite (settles_pure start ()) (settles_fail (Nat.zero_le start) _)

theorem settles_strategyName (start : Nat) : Settles start Reader.strategyName :=
  settles_offset_bind fun here =>
    settles_bind (recognizes_take 32) (settles_take here 32) fun _ =>
      settles_bind recognizes_short (settles_short here) fun length =>
        settles_bind (recognizes_text length) (settles_text here length) fun name =>
          settles_ite (settles_pure here name) (settles_fail (Nat.le_refl here) _)

theorem settles_flavor (start : Nat) : Settles start Reader.flavor := by
  refine settles_offset_bind fun here =>
    settles_bind recognizes_byte (settles_byte here) fun tag => ?_
  cases Flavor.ofTag? tag with
  | some f => exact settles_pure here f
  | none => exact settles_fail (Nat.le_refl here) _

theorem settles_parts (start : Nat) : Settles start Reader.parts :=
  settles_bind recognizes_knownVersion (settles_knownVersion start) fun _ =>
    settles_bind recognizes_strategyName (settles_strategyName start) fun _ =>
      settles_bind recognizes_flavor (settles_flavor start) fun _ =>
        settles_bind (recognizes_counted recognizes_subSlot)
            (settles_counted recognizes_subSlot (settles_subSlot start)) fun _ =>
          settles_bind (recognizes_counted (recognizes_operation .trigger _))
              (settles_counted (recognizes_operation .trigger _)
                (settles_operation start .trigger _)) fun _ =>
            settles_map (recognizes_counted (recognizes_operation .action _))
              (settles_counted (recognizes_operation .action _)
                (settles_operation start .action _)) _

/-- Faults of decoding are found by the end of the bytes. -/
theorem foundBy_decode {bytes : List UInt8} {fault : Fault} (h : decode bytes = .error fault) :
    FoundBy bytes.length fault := by
  have hstop : (⟨bytes, 0⟩ : Input).stop = bytes.length := Nat.zero_add _
  rw [← hstop]
  rw [decode_eq_parts] at h
  rcases bind_eq_error.mp h with hread | ⟨⟨d, next⟩, hread, hthen⟩
  · rcases settles_parts 0 _ fault (Nat.le_refl 0) hread with hran | ⟨hfound, -⟩
    · exact hran.foundBy
    · exact hfound
  · rintro offset cause rfl
    split at hthen
    · exact (failsWith_build d _ hthen).elim
    · cases hthen
      rw [← (recognizes_parts.stop_eq hread).2]
      exact Nat.le_add_right _ _

/-! ## Encodings -/

/-- The parts are read from an encoding whatever stands behind it. -/
theorem parts_encode {s : Strategy} (h : s.Built) (hs : Encodable s) (more : List UInt8) :
    Reader.parts ⟨encode s ++ more, 0⟩ = .ok (s.toDraft, ⟨more, (encode s).length⟩) := by
  refine (recognizes_parts _ _ _).mpr ⟨encode s, ?_, rfl, ?_⟩
  · exact (draftSpelled_toDraft_iff h _).mpr ⟨hs, rfl⟩
  · exact (Nat.zero_add _).symm

/-- Reading the parts of a cut encoding runs out of bytes. -/
theorem parts_cut {s : Strategy} (h : s.Built) (hs : Encodable s) {front back : List UInt8}
    (hcut : encode s = front ++ back) (hback : back ≠ []) :
    ∃ fault, Reader.parts ⟨front, 0⟩ = .error fault ∧ RanOut front.length fault := by
  have hwhole : Reader.parts (Input.followedBy ⟨front, 0⟩ back) =
      .ok (s.toDraft, ⟨[], (encode s).length⟩) := by
    rw [← parts_encode h hs [], List.append_nil, hcut]
    rfl
  cases hread : Reader.parts ⟨front, 0⟩ with
  | ok p =>
    obtain ⟨d, next⟩ := p
    rw [recognizes_parts.followedBy hread back] at hwhole
    cases List.append_eq_nil_iff.mp (congrArg (·.2.rest) (Except.ok.inj hwhole)) with
    | intro _ hnone => exact absurd hnone hback
  | error fault =>
    rcases settles_parts 0 ⟨front, 0⟩ fault (Nat.le_refl 0) hread with hran | ⟨-, hsettled⟩
    · refine ⟨fault, rfl, ?_⟩
      rw [← Nat.zero_add front.length]
      exact hran
    · rw [hsettled back] at hwhole
      cases hwhole

/-- **Self-delimitation.** No proper part from the front of an encoding and no extension of it
    is decoded: the first is found truncated, at an offset that is not beyond its end and from
    which more bytes were needed than it has, the second is found to go on where the encoding
    ends. -/
theorem decode_cut_or_extended {d : Draft} {s : Strategy} (hbuild : d.build = .ok s)
    (hconsts : ∀ op ∈ s.operations, ∀ value, Binding.const value ∈ op.bindings →
      value.fits = true)
    (hslots : ∀ slot ∈ s.subSlots, slot.type.legal = true) :
    (∀ front, front <+: encode s → front ≠ encode s →
      ∃ offset needed, decode front = .error (.undecodable offset (.truncated needed)) ∧
        offset ≤ front.length ∧ front.length < offset + needed) ∧
    ∀ more, more ≠ [] →
      decode (encode s ++ more) =
        .error (.undecodable (encode s).length (.trailing more.length)) := by
  have hbuilt : s.Built := (build_eq_ok_iff.mp hbuild).2
  have hs : Encodable s := ⟨hconsts, hslots⟩
  constructor
  · rintro front ⟨back, hcut⟩ hproper
    have hback : back ≠ [] := by
      rintro rfl
      rw [List.append_nil] at hcut
      exact hproper hcut
    obtain ⟨fault, hread, offset, needed, rfl, hoffset, hneeded⟩ :=
      parts_cut hbuilt hs hcut.symm hback
    refine ⟨offset, needed, ?_, hoffset, hneeded⟩
    rw [decode_eq_parts, hread]
    rfl
  · intro more hmore
    rw [decode_eq_parts, parts_encode hbuilt hs]
    exact if_neg fun hempty => hmore (List.isEmpty_iff.mp hempty)

theorem decode_cut_or_extended_draw :
    (∃ offset needed,
      decode (encode draw).dropLast = .error (.undecodable offset (.truncated needed)) ∧
        offset ≤ (encode draw).dropLast.length ∧
        (encode draw).dropLast.length < offset + needed) ∧
    decode (encode draw ++ [0]) = .error (.undecodable (encode draw).length (.trailing 1)) := by
  obtain ⟨hcut, hextended⟩ :=
    decode_cut_or_extended build_draw encodable_draw.consts_fit encodable_draw.slots_legal
  refine ⟨hcut _ (List.dropLast_prefix _) ?_, hextended [0] (List.cons_ne_nil 0 [])⟩
  intro heq
  have hlength := congrArg List.length heq
  have hpos : 0 < (encode draw).length := List.length_pos_of_ne_nil (List.cons_ne_nil _ _)
  rw [List.length_dropLast] at hlength
  omega

end Autopilot.Wire
