/-
  Amounts in the sections of a keeper file.

  A section computes a value for each of its keys, or fails with the fault of its least key that
  has one (`sectionValues_eq_ok`, `sectionValues_eq_error_iff`). What is said here of a literal of
  integer type therefore holds in every section that reads such literals (`TakesAmount`): for the
  sub-slots of a subscription, for the variables that the keeper measured and for the variables of
  a member.

  Which literals these are is told by the texts of amounts (`read_uint_eq_ok_iff`). There are more
  of them than are written plainly, and those without any digit are zero (`amounts_taken`).
-/
import Autopilot.KeeperFile
import Autopilot.Proofs.NameMap
import Autopilot.Proofs.Text.Amounts
import Autopilot.Proofs.Value

namespace Autopilot

/-! ## Literals of integer type -/

/-- An amount of the width in bits, under a text without the blanks around it. -/
def SpellsAmount (bits : UInt16) (s : String) (n : Nat) : Prop :=
  n < bitBound bits.toNat ∧ Text.IsAmount n (Text.trim s).toList

theorem bitBound_le_of_legalBits {bits : UInt16} (h : SlotType.legalBits bits = true) :
    bitBound bits.toNat ≤ 2 ^ 256 := by
  unfold SlotType.legalBits at h
  simp only [Bool.and_eq_true, decide_eq_true_eq] at h
  exact Nat.pow_le_pow_right (by decide) h.1.2

theorem read_uint_eq_ok_iff {bits : UInt16} (h : SlotType.legalBits bits = true) {s : String}
    {v : AbiValue} : AbiValue.read (.uint bits) s = .ok v ↔
      ∃ n, SpellsAmount bits s n ∧ v = .uint (BitVec.ofNat 256 n) bits := by
  have hread : AbiValue.read (.uint bits) s = .ok v ↔
      ∃ w, Text.amount? (Text.trim s) = some w ∧ w.toNat < bitBound bits.toNat ∧
        v = .uint w bits := by
    have hunfold : AbiValue.read (.uint bits) s = AbiValue.readUint bits (Text.trim s) := rfl
    rw [hunfold]
    unfold AbiValue.readUint
    cases Text.amount? (Text.trim s) with
    | none => simp
    | some w =>
      by_cases hw : w.toNat < bitBound bits.toNat
      · simp [hw, eq_comm]
      · simp [hw]
  rw [hread]
  constructor
  · rintro ⟨w, hw, hlt, rfl⟩
    refine ⟨w.toNat, ⟨hlt, Text.amount?_eq_some_iff.mp hw⟩, ?_⟩
    rw [BitVec.ofNat_toNat, BitVec.setWidth_eq]
  · rintro ⟨n, ⟨hlt, hn⟩, rfl⟩
    have htoNat : (BitVec.ofNat 256 n).toNat = n := by
      rw [BitVec.toNat_ofNat]
      exact Nat.mod_eq_of_lt (Nat.lt_of_lt_of_le hlt (bitBound_le_of_legalBits h))
    refine ⟨BitVec.ofNat 256 n, Text.amount?_eq_some_iff.mpr ?_, ?_, rfl⟩
    · rwa [htoNat]
    · rwa [htoNat]

/-- A text without digits is read as zero, whatever the width. -/
theorem read_uint_of_digitless {bits : UInt16} (h : SlotType.legalBits bits = true) {s : String}
    (hs : Text.IsDigitless (Text.trim s).toList) :
    AbiValue.read (.uint bits) s = .ok (.uint 0 bits) :=
  (read_uint_eq_ok_iff h).mpr
    ⟨0, ⟨Nat.two_pow_pos _, Text.isAmount_zero_of_digitless hs⟩, rfl⟩

/-! ## Sections -/

namespace KeeperFile

section

variable {α : Type} {ini : Ini} {heading : String} {f : String → Except Fault α}

/-- The entries of a section; an absent section has none. -/
def entriesOf (ini : Ini) (heading : String) : IniSection :=
  (ini.sections.find? heading).getD NameMap.empty

theorem keys_entriesOf : (entriesOf ini heading).keys = ini.keys heading := by
  unfold entriesOf Ini.keys
  cases ini.sections.find? heading with
  | none => rfl
  | some entries => rfl

/-- A section is a map that is computed key by key, the values of the entries aside. -/
theorem sectionValues_eq_mapM :
    sectionValues ini heading f = (entriesOf ini heading).mapM fun key _ => f key := by
  unfold sectionValues NameMap.mapM
  rw [← keys_entriesOf]
  unfold NameMap.keys
  rw [List.mapM_map]
  rfl

theorem sectionValues_eq_ok {values : NameMap α} (h : sectionValues ini heading f = .ok values) :
    values.keys = ini.keys heading ∧
      ∀ key ∈ ini.keys heading, ∃ value, f key = .ok value ∧ values.find? key = some value := by
  rw [sectionValues_eq_mapM] at h
  obtain ⟨hkeys, hvalues⟩ := NameMap.mapM_eq_ok h
  rw [keys_entriesOf] at hkeys
  refine ⟨hkeys, fun key hkey => ?_⟩
  rw [← keys_entriesOf, NameMap.mem_keys_iff] at hkey
  obtain ⟨text, htext⟩ := hkey
  exact hvalues key text htext

theorem sectionValues_eq_error_iff {fault : Fault} :
    sectionValues ini heading f = .error fault ↔ ∃ key ∈ ini.keys heading, f key = .error fault ∧
      ∀ earlier ∈ ini.keys heading, earlier < key → ∃ value, f earlier = .ok value := by
  rw [sectionValues_eq_mapM, NameMap.mapM_eq_error_iff]
  simp only [← keys_entriesOf, NameMap.mem_keys_iff]
  constructor
  · rintro ⟨key, text, htext, hfault, hearlier⟩
    exact ⟨key, ⟨text, htext⟩, hfault, fun earlier ⟨text', htext'⟩ hlt =>
      hearlier earlier text' hlt htext'⟩
  · rintro ⟨key, ⟨text, htext⟩, hfault, hearlier⟩
    exact ⟨key, text, htext, hfault, fun earlier text' hlt htext' =>
      hearlier earlier ⟨text', htext'⟩ hlt⟩

/-- With a key at fault the section fails, at this key or at an earlier one. -/
theorem sectionValues_fails {key : String} {fault : Fault} (hkey : key ∈ ini.keys heading)
    (h : f key = .error fault) :
    sectionValues ini heading f = .error fault ∨ ∃ earlier ∈ ini.keys heading, earlier < key ∧
      ∃ fault', f earlier = .error fault' ∧ sectionValues ini heading f = .error fault' := by
  cases hsection : sectionValues ini heading f with
  | ok values =>
    obtain ⟨value, hvalue, -⟩ := (sectionValues_eq_ok hsection).2 key hkey
    rw [h] at hvalue
    cases hvalue
  | error fault' =>
    obtain ⟨first, hfirst, hfault', hearlier⟩ := sectionValues_eq_error_iff.mp hsection
    -- no key before the first one at fault is at fault, so the key is not before it
    have hle : ¬ key < first := by
      intro hlt
      obtain ⟨value, hvalue⟩ := hearlier key hkey hlt
      rw [h] at hvalue
      cases hvalue
    by_cases heq : first = key
    · rw [heq, h] at hfault'
      exact .inl (congrArg Except.error (Except.error.inj hfault').symm)
    · refine .inr ⟨first, hfirst, ?_, fault', hfault', rfl⟩
      exact Decidable.by_contra fun hge =>
        heq (String.le_antisymm (String.not_lt.mp hle) (String.not_lt.mp hge))

end

/-- The fault is one of a key of a section. -/
def IsAt (heading key : String) (fault : Fault) : Prop :=
  (∃ cause, fault = .configInvalid heading key cause) ∨
    fault = .undeclaredSubSlot ("[" ++ heading ++ "]") key

theorem failsWith_literal (ini : Ini) (heading key : String) (type : SlotType) :
    FailsWith (literal ini heading key type) (IsAt heading key) :=
  failsWith_mapError _ fun _ => .inl ⟨_, rfl⟩

/-- What a section makes of a key of integer type. Its values hold the amount that the text of the
    key spells, which is zero for a text without digits. If it fails although the text spells an
    amount, then at another key; and if the text spells none, then at this key, whose literal is
    invalid, or at an earlier one. -/
structure TakesAmount {α : Type} (ini : Ini) (heading key : String) (bits : UInt16)
    (wrap : AbiValue → α) (result : Except Fault (NameMap α)) : Prop where
  taken : ∀ values, result = .ok values → ∃ n, SpellsAmount bits (ini.valueD heading key) n ∧
    values.find? key = some (wrap (.uint (BitVec.ofNat 256 n) bits))
  digitless : ∀ values, result = .ok values →
    Text.IsDigitless (Text.trim (ini.valueD heading key)).toList →
    values.find? key = some (wrap (.uint 0 bits))
  accepted : ∀ n fault, SpellsAmount bits (ini.valueD heading key) n → result = .error fault →
    ∃ other ∈ ini.keys heading, other ≠ key ∧ IsAt heading other fault
  refused : (∀ n, ¬ SpellsAmount bits (ini.valueD heading key) n) → ∃ fault,
    result = .error fault ∧ ((∃ cause, fault = .configInvalid heading key (.literal cause)) ∨
      ∃ earlier ∈ ini.keys heading, earlier < key ∧ IsAt heading earlier fault)

theorem literal_of_spells {ini : Ini} {heading key : String} {bits : UInt16}
    (h : SlotType.legalBits bits = true) {n : Nat}
    (hn : SpellsAmount bits (ini.valueD heading key) n) :
    literal ini heading key (.uint bits) = .ok (.uint (BitVec.ofNat 256 n) bits) :=
  mapError_eq_ok.mpr ((read_uint_eq_ok_iff h).mpr ⟨n, hn, rfl⟩)

theorem takesAmount_of_literal {α : Type} {ini : Ini} {heading key : String} {bits : UInt16}
    {wrap : AbiValue → α} {f : String → Except Fault α} (h : SlotType.legalBits bits = true)
    (hkey : key ∈ ini.keys heading)
    (hliteral : f key = (literal ini heading key (.uint bits)).map wrap)
    (hfaults : ∀ other, FailsWith (f other) (IsAt heading other)) :
    TakesAmount ini heading key bits wrap (sectionValues ini heading f) := by
  constructor
  case taken =>
    intro values hvalues
    obtain ⟨value, hvalue, hfind⟩ := (sectionValues_eq_ok hvalues).2 key hkey
    rw [hliteral] at hvalue
    obtain ⟨v, hv, rfl⟩ := map_eq_ok.mp hvalue
    obtain ⟨n, hn, rfl⟩ := (read_uint_eq_ok_iff h).mp (mapError_eq_ok.mp hv)
    exact ⟨n, hn, hfind⟩
  case digitless =>
    intro values hvalues hdigitless
    obtain ⟨value, hvalue, hfind⟩ := (sectionValues_eq_ok hvalues).2 key hkey
    have hzero : literal ini heading key (.uint bits) = .ok (.uint 0 bits) :=
      mapError_eq_ok.mpr (read_uint_of_digitless h hdigitless)
    rw [hliteral, hzero] at hvalue
    cases hvalue
    exact hfind
  case accepted =>
    intro n fault hn hfault
    obtain ⟨other, hother, hf, -⟩ := sectionValues_eq_error_iff.mp hfault
    refine ⟨other, hother, ?_, hfaults other fault hf⟩
    rintro rfl
    rw [hliteral, literal_of_spells h hn] at hf
    cases hf
  case refused =>
    intro hnone
    cases hread : AbiValue.read (.uint bits) (ini.valueD heading key) with
    | ok v =>
      obtain ⟨n, hn, -⟩ := (read_uint_eq_ok_iff h).mp hread
      exact absurd hn (hnone n)
    | error cause =>
      -- the fault of this key is known; an earlier key may be at fault first
      have hf : f key = .error (.configInvalid heading key (.literal cause)) := by
        rw [hliteral]
        unfold literal
        rw [hread]
        rfl
      rcases sectionValues_fails hkey hf with
        hhere | ⟨earlier, hearlier, hlt, fault, hfault, herror⟩
      · exact ⟨_, hhere, .inl ⟨cause, rfl⟩⟩
      · exact ⟨fault, herror, .inr ⟨earlier, hearlier, hlt, hfaults earlier fault hfault⟩⟩

/-! ### The three sections -/

theorem takesAmount_subscriptionValues {ini : Ini} {slots : List SubSlot} {key : String}
    {slot : SubSlot} {bits : UInt16} (h : SlotType.legalBits bits = true)
    (hkey : key ∈ ini.keys "subscription.values") (hslot : slots.find? (·.name = key) = some slot)
    (htype : slot.type = .uint bits) :
    TakesAmount ini "subscription.values" key bits id (subscriptionValues ini slots) := by
  unfold subscriptionValues
  refine takesAmount_of_literal h hkey ?_ fun other => ?_
  · simp only [hslot, htype, Except.map_id, id_eq]
  · split
    · exact failsWith_error (.inr rfl)
    · exact failsWith_literal ini _ _ _

theorem takesAmount_callerVariables {ini : Ini} {types : NameMap SlotType} {key : String}
    {bits : UInt16} (h : SlotType.legalBits bits = true) (hkey : key ∈ ini.keys "variables")
    (htype : types.find? key = some (.uint bits)) :
    TakesAmount ini "variables" key bits id (callerVariables ini types) := by
  unfold callerVariables
  refine takesAmount_of_literal h hkey ?_ fun other => ?_
  · simp only [htype, Except.map_id, id_eq]
  · split
    · exact failsWith_error (.inl ⟨_, rfl⟩)
    · exact failsWith_literal ini _ _ _

/-- The variables of the member of a section. -/
def memberVariables (ini : Ini) (heading : String) (types : NameMap SlotType) :
    Except Fault (NameMap VariableSource) :=
  sectionValues ini (heading ++ ".variables") (variableSource ini (heading ++ ".variables") types)

theorem memberVariables_of_member {ini : Ini} {heading : String} {s : Strategy} {m : BundleMember}
    (h : member ini heading s = .ok m) :
    memberVariables ini heading s.variableTypes = .ok m.sources := by
  obtain ⟨condition, -, hrest⟩ := bind_eq_ok.mp h
  obtain ⟨sources, hsources, hmember⟩ := bind_eq_ok.mp hrest
  cases hmember
  exact hsources

/-- The text names no key of the snapshot. -/
def IsLiteral (s : String) : Prop :=
  (Text.trim s).toList.head? ≠ some '@'

theorem takesAmount_memberVariables {ini : Ini} {heading : String} {types : NameMap SlotType}
    {key : String} {bits : UInt16} (h : SlotType.legalBits bits = true)
    (hkey : key ∈ ini.keys (heading ++ ".variables")) (htype : types.find? key = some (.uint bits))
    (hliteral : IsLiteral (ini.valueD (heading ++ ".variables") key)) :
    TakesAmount ini (heading ++ ".variables") key bits .const
      (memberVariables ini heading types) := by
  unfold memberVariables
  refine takesAmount_of_literal h hkey ?_ fun other => ?_
  · unfold variableSource
    split
    · next name hname =>
      unfold IsLiteral at hliteral
      rw [hname] at hliteral
      exact absurd rfl hliteral
    · rw [htype]
  · unfold variableSource
    split
    · exact failsWith_ok _ _
    · split
      · exact failsWith_error (.inl ⟨_, rfl⟩)
      · exact (failsWith_literal ini _ _ _).map

/-- **Amounts as they are read.** A text is read as an amount of a width exactly if it spells one
    that fits. The plain texts are read for what they say, and what is read beyond them is known by
    its shape; a text without digits is read as zero. So every section of values takes the amount
    that is spelled under a key of integer type, and refuses a key whose text spells none. -/
theorem amounts_taken {bits : UInt16} (h : SlotType.legalBits bits = true) :
    (∀ s v, AbiValue.read (.uint bits) s = .ok v ↔
      ∃ n, SpellsAmount bits s n ∧ v = .uint (BitVec.ofNat 256 n) bits) ∧
    (∀ n cs, Text.IsPlainAmount n cs ↔ Text.IsAmount n cs ∧ Text.IsPlain cs) ∧
    (∀ s, Text.IsDigitless (Text.trim s).toList →
      AbiValue.read (.uint bits) s = .ok (.uint 0 bits)) ∧
    (∀ ini slots key slot, key ∈ ini.keys "subscription.values" →
      slots.find? (·.name = key) = some slot → slot.type = .uint bits →
      TakesAmount ini "subscription.values" key bits id (subscriptionValues ini slots)) ∧
    (∀ ini types key, key ∈ ini.keys "variables" → types.find? key = some (.uint bits) →
      TakesAmount ini "variables" key bits id (callerVariables ini types)) ∧
    (∀ ini heading types key, key ∈ ini.keys (heading ++ ".variables") →
      types.find? key = some (.uint bits) →
      IsLiteral (ini.valueD (heading ++ ".variables") key) →
      TakesAmount ini (heading ++ ".variables") key bits .const
        (memberVariables ini heading types)) ∧
    (∀ ini heading s m, member ini heading s = .ok m →
      memberVariables ini heading s.variableTypes = .ok m.sources) :=
  ⟨fun _ _ => read_uint_eq_ok_iff h, fun _ _ => Text.isPlainAmount_iff,
    fun _ => read_uint_of_digitless h, fun _ _ _ _ => takesAmount_subscriptionValues h,
    fun _ _ _ => takesAmount_callerVariables h, fun _ _ _ _ => takesAmount_memberVariables h,
    fun _ _ _ _ => memberVariables_of_member⟩

/-- A keeper file with one value, of eight bits. -/
def oneByte : Ini :=
  ⟨NameMap.ofList [("subscription.values", NameMap.ofList [("state", some "0xFf")])]⟩

theorem amounts_taken_oneByte :
    AbiValue.read (.uint 8) "0xFf" = .ok (.uint 255 8) ∧
      TakesAmount oneByte "subscription.values" "state" 8 id
        (subscriptionValues oneByte [⟨"state", .uint 8⟩]) := by
  have hbits : SlotType.legalBits 8 = true := by decide
  obtain ⟨hread, hplain, -, hvalues, -⟩ := amounts_taken hbits
  refine ⟨(hread _ _).mpr ⟨255, ⟨by decide, ?_⟩, rfl⟩, hvalues _ _ _ _ ?_ rfl rfl⟩
  · exact ((hplain _ _).mp
      (.inr ⟨['F', 'f'], by decide, by decide, [15, 15], by decide, by decide⟩)).1
  · decide

/-- A keeper file whose value was not filled in. -/
def unfilled : Ini :=
  ⟨NameMap.ofList [("subscription.values", NameMap.ofList [("vault", some "")])]⟩

/-- The value is taken for zero, and no amount is written there. -/
theorem amounts_unfilled :
    Ini.read "[subscription.values]\nvault =\n" = .ok unfilled ∧
      subscriptionValues unfilled [⟨"vault", .uint 256⟩] =
        .ok (NameMap.ofList [("vault", .uint 0 256)]) ∧
      ∀ n, ¬ Text.IsPlainAmount n
        (Text.trim (unfilled.valueD "subscription.values" "vault")).toList := by
  refine ⟨rfl, by decide +kernel, fun n hn => ?_⟩
  have hnil : (Text.trim (unfilled.valueD "subscription.values" "vault")).toList = [] := by decide
  exact hn.isPlain.1 hnil

end KeeperFile

end Autopilot
