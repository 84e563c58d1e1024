/-
  The hash of a subscription stands for its content.

  What is hashed is a row of words, and a word tells neither the name of a value nor its type: the
  amount one, a set flag and the address with the number one have the same word. Both come back
  with the target. Without a collision of the hash an id stands for one strategy and a key for the
  members of one bundle, so subscriptions to one target were held against one table, in whichever
  processes (`table_of_declares`), and within a table the words determine the values
  (`values_of_words`).
-/
import Autopilot.Proofs.Execution.Bundles

namespace Autopilot

/-! ## Words -/

/-- An address stands in the low bits of its word. -/
theorem setWidth_inj {a a' : Address} (h : a.setWidth 256 = a'.setWidth 256) : a = a' := by
  have hback := congrArg (BitVec.setWidth 160) h
  rwa [BitVec.setWidth_setWidth_of_le a (by decide), BitVec.setWidth_setWidth_of_le a' (by decide),
    BitVec.setWidth_eq, BitVec.setWidth_eq] at hback

/-- Among the values of one type a word stands for one value. -/
theorem AbiValue.abiWord_inj {v v' : AbiValue} (htype : v.slotType = v'.slotType)
    (h : v.abiWord = v'.abiWord) : v = v' := by
  cases v with
  | uint value bits =>
    cases v' with
    | uint value' bits' =>
      cases htype
      exact congrArg (AbiValue.uint · bits) h
    | _ => cases htype
  | address value =>
    cases v' with
    | address value' => rw [setWidth_inj h]
    | _ => cases htype
  | bool value =>
    cases v' with
    | bool value' =>
      have hbool : ∀ b b' : Bool,
          (AbiValue.bool b).abiWord = (AbiValue.bool b').abiWord → b = b' := by
        decide
      rw [hbool value value' h]
    | _ => cases htype
  | bytes32 value =>
    cases v' with
    | bytes32 value' => exact congrArg AbiValue.bytes32 h
    | _ => cases htype

/-- Values that were stored for one table are told apart by their words. -/
theorem values_of_words {given given' : NameMap AbiValue} {slots : List SubSlot}
    {values values' : List (String × AbiValue)} (h : List.Forall₂ (StoredFor given) slots values)
    (h' : List.Forall₂ (StoredFor given') slots values')
    (hwords : values.map (·.2.abiWord) = values'.map (·.2.abiWord)) : values = values' := by
  induction h generalizing values' with
  | nil =>
    cases h'
    rfl
  | cons hfirst _ ih =>
    cases h' with
    | cons hfirst' hrest' =>
      obtain ⟨hword, hwords⟩ := List.cons.inj hwords
      have hvalue := AbiValue.abiWord_inj (hfirst.type.trans hfirst'.type.symm) hword
      rw [ih hrest' hwords, Prod.ext (hfirst.name.trans hfirst'.name.symm) hvalue]

/-! ## What is hashed -/

/-- A target is its content address and whether it is a bundle. -/
theorem Target.eq_of_digest {target target' : Target} (hdigest : target.digest = target'.digest)
    (hbundle : target.isBundle = target'.isBundle) : target = target' := by
  cases target with
  | strategy id =>
    cases target' with
    | strategy id' => exact congrArg (Target.strategy ⟨·⟩) hdigest
    | bundle key' => cases hbundle
  | bundle key =>
    cases target' with
    | strategy id' => cases hbundle
    | bundle key' => exact congrArg (Target.bundle ⟨·⟩) hdigest

namespace Subscription

/-- The words that are hashed. -/
def hashedWords (s : Subscription) : List Word :=
  [0x20, s.target.digest, if s.target.isBundle then 1 else 0, s.owner.setWidth 256, 0x80,
    BitVec.ofNat 256 s.values.length] ++ s.values.map (·.2.abiWord)

theorem hashedBytes_eq_flatMap (s : Subscription) :
    s.hashedBytes = s.hashedWords.flatMap wordBytes := by
  unfold hashedBytes hashedWords AbiValue.abiBytes
  rw [List.flatMap_append, List.flatMap_map]
  simp only [List.flatMap_cons, List.flatMap_nil, List.append_nil, List.append_assoc]

/-- What is hashed tells the target, the owner and the words of the values. -/
theorem hashedBytes_eq_iff {s s' : Subscription} :
    s.hashedBytes = s'.hashedBytes ↔ s.target = s'.target ∧ s.owner = s'.owner ∧
      s.values.map (·.2.abiWord) = s'.values.map (·.2.abiWord) := by
  rw [hashedBytes_eq_flatMap, hashedBytes_eq_flatMap]
  constructor
  · intro h
    have hwords := Wire.flatMap_wordBytes_inj h
    unfold hashedWords at hwords
    simp only [List.cons_append, List.nil_append, List.cons.injEq, true_and] at hwords
    obtain ⟨hdigest, hflag, howner, -, hvalues⟩ := hwords
    have hbool : ∀ b b' : Bool, (if b then 1 else 0 : Word) = (if b' then 1 else 0) → b = b' := by
      decide
    exact ⟨Target.eq_of_digest hdigest (hbool _ _ hflag), setWidth_inj howner,
      hvalues⟩
  · intro h
    obtain ⟨htarget, howner, hvalues⟩ := h
    have hlength : s.values.length = s'.values.length := by
      simpa using congrArg List.length hvalues
    unfold hashedWords
    rw [htarget, howner, hvalues, hlength]

end Subscription

/-! ## Offers -/

/-- What is subscribed to: a single strategy, or the bundle of a library with a number. -/
inductive Offer where
  | single (s : Strategy)
  | bundle (lib : Library) (number : Nat)

namespace Offer

/-- The strategy was built, or the library was filled with strategies that were. -/
def Sound : Offer → Prop
  | single s => ∃ d : Draft, d.build = .ok s
  | bundle lib _ => lib.Published

/-- Subscribes to the offer. -/
def subscribe {σ : Type} [Ledger σ] (owner : Address) (values : NameMap AbiValue)
    (now : Timestamp) : Offer → OnLedger σ Nat
  | single s => Manager.subscribe s owner values now
  | bundle lib number => Manager.subscribeBundle lib number owner values now

/-- What is hashed for the ids of the strategies. -/
def encodings : Offer → Set (List UInt8)
  | single s => {Wire.encode s}
  | bundle lib number => {bytes | ∃ b, lib.bundle number = .ok b ∧ bytes ∈ lib.memberEncodings b}

/-- What is hashed for the key of the bundle. -/
def keys : Offer → Set (List UInt8)
  | single _ => ∅
  | bundle lib number => {bytes | ∃ b, lib.bundle number = .ok b ∧ bytes = b.keyBytes}

/-- For a bundle of the library, these are the encodings of its members. -/
theorem encodings_bundle {lib : Library} {number : Nat} {b : Bundle}
    (h : lib.bundle number = .ok b) : (bundle lib number).encodings = lib.memberEncodings b := by
  ext bytes
  unfold encodings
  simp [h]

theorem keys_bundle {lib : Library} {number : Nat} {b : Bundle} (h : lib.bundle number = .ok b) :
    (bundle lib number).keys = {b.keyBytes} := by
  ext bytes
  unfold keys
  simp [h]

/-- Who subscribes to the offer has this target, and gives values for this table. -/
def Declares : Offer → Target → List SubSlot → Prop
  | single s, target, slots => target = .strategy s.id ∧ slots = s.subSlots
  | bundle lib number, target, slots => lib.bundleSubSlots number = .ok slots ∧
      ∃ b, lib.bundle number = .ok b ∧ target = .bundle b.key

theorem declares_of_subscribe {σ : Type} [Ledger σ] {offer : Offer} {owner : Address}
    {values : NameMap AbiValue} {now : Timestamp} {ledger next : σ} {id : Nat}
    (h : offer.subscribe owner values now ledger = .ok (id, next)) :
    ∃ target slots, offer.Declares target slots ∧
      Manager.create target slots owner values now ledger = .ok (id, next) := by
  cases offer with
  | single s => exact ⟨_, _, ⟨rfl, rfl⟩, h⟩
  | bundle lib number =>
    obtain ⟨slots, key, hslots, hkey, hcreate⟩ := Manager.subscribeBundle_eq_ok_iff.mp h
    obtain ⟨b, hb, hpure⟩ := bind_eq_ok.mp hkey
    cases hpure
    exact ⟨_, slots, ⟨hslots, b, hb, rfl⟩, hcreate⟩

/-- A bundle with a table has members. -/
theorem exists_member_of_slots {lib : Library} {number : Nat} {b : Bundle} {slots : List SubSlot}
    (hbundle : lib.bundle number = .ok b) (hslots : lib.bundleSubSlots number = .ok slots) :
    ∃ m, m ∈ b.members := by
  unfold Library.bundleSubSlots at hslots
  obtain ⟨b', hbundle', hslots⟩ := bind_eq_ok.mp hslots
  rw [hbundle] at hbundle'
  cases hbundle'
  cases hmembers : b.members with
  | nil =>
    rw [hmembers] at hslots
    cases hslots
  | cons m rest => exact ⟨m, List.mem_cons_self⟩

variable {offer₁ offer₂ : Offer} (h₁ : offer₁.Sound) (h₂ : offer₂.Sound)
  (hencodings : Set.InjOn Keccak.digest (offer₁.encodings ∪ offer₂.encodings))
  (hkeys : Set.InjOn Keccak.digest (offer₁.keys ∪ offer₂.keys))

include h₁ h₂ hencodings hkeys

/-- Without a collision, offers with one target have one table. -/
theorem table_of_declares {target : Target} {slots₁ slots₂ : List SubSlot}
    (hdeclares₁ : offer₁.Declares target slots₁) (hdeclares₂ : offer₂.Declares target slots₂) :
    slots₁ = slots₂ := by
  cases offer₁ with
  | single s₁ =>
    obtain ⟨rfl, rfl⟩ := hdeclares₁
    cases offer₂ with
    | single s₂ =>
      obtain ⟨htarget, rfl⟩ := hdeclares₂
      obtain ⟨d₁, hbuild₁⟩ := h₁
      obtain ⟨d₂, hbuild₂⟩ := h₂
      have hdigest : Keccak.digest (Wire.encode s₁) = Keccak.digest (Wire.encode s₂) :=
        congrArg StrategyId.digest (Target.strategy.inj htarget)
      have hbytes := hencodings (.inl rfl) (.inr rfl) hdigest
      rw [Wire.encode_inj (build_eq_ok_iff.mp hbuild₁).2 (build_eq_ok_iff.mp hbuild₂).2 hbytes]
    | bundle lib₂ number₂ =>
      obtain ⟨-, b₂, -, htarget⟩ := hdeclares₂
      cases htarget
  | bundle lib₁ number₁ =>
    obtain ⟨hslots₁, b₁, hbundle₁, rfl⟩ := hdeclares₁
    cases offer₂ with
    | single s₂ =>
      obtain ⟨htarget, -⟩ := hdeclares₂
      cases htarget
    | bundle lib₂ number₂ =>
      obtain ⟨hslots₂, b₂, hbundle₂, htarget⟩ := hdeclares₂
      rw [encodings_bundle hbundle₁, encodings_bundle hbundle₂] at hencodings
      rw [keys_bundle hbundle₁, keys_bundle hbundle₂] at hkeys
      have hids : b₁.memberIds = b₂.memberIds :=
        (Bundle.key_eq_iff hkeys).mp (Target.bundle.inj htarget)
      obtain ⟨m, hm⟩ := exists_member_of_slots hbundle₂ hslots₂
      obtain ⟨s, hget⟩ := Library.exists_member h₂.reachable hbundle₂ hm
      rw [table_of_member h₁ h₂ hbundle₁ hencodings hids (Bundle.mem_memberIds.mpr ⟨m, hm, rfl⟩)
          hget hslots₁,
        Library.bundleSubSlots_eq h₂.reachable hbundle₂ hm hget hslots₂]

end Offer

/-! ## Subscriptions that were accepted -/

/-- The subscription is in the ledger under a number that was returned for the offer, on this
    ledger or one that it came from. -/
def AcceptedAs (offer : Offer) (id : Nat) (ledger : ConfiguredLedger) (s : Subscription) : Prop :=
  ∃ owner values now before created, before.Reachable ∧
    offer.subscribe owner values now before = .ok (id, created) ∧
    ConfiguredLedger.Reaches created ledger ∧ Ledger.fetch ledger id = .ok (some s)

namespace AcceptedAs

variable {offer : Offer} {id : Nat} {ledger : ConfiguredLedger} {s : Subscription}
  (h : AcceptedAs offer id ledger s)

include h

/-- Its target is the offer's, and its values were stored for the offer's table. -/
theorem exists_table : ∃ slots given, offer.Declares s.target slots ∧
    List.Forall₂ (StoredFor given) slots s.values := by
  obtain ⟨owner, values, now, before, created, hbefore, hsubscribe, hlater, hfetch⟩ := h
  obtain ⟨target, slots, hdeclares, hcreate⟩ := Offer.declares_of_subscribe hsubscribe
  obtain ⟨ordered, inserted, hordered, hinsert, rfl⟩ := Manager.create_eq_ok_iff.mp hcreate
  have hkeeps := ConfiguredLedger.keeps_of_fetch_inserted hbefore hinsert hlater hfetch
  refine ⟨slots, values, ?_, ?_⟩
  · rw [hkeeps.target]
    exact hdeclares
  · rw [hkeeps.values]
    exact declaredValues_spec hordered

/-- Whatever is found under its number later has the hash that it has. -/
theorem hash_of_fetch {later : ConfiguredLedger} (hlater : ConfiguredLedger.Reaches ledger later)
    {again : Subscription} (hagain : Ledger.fetch later id = .ok (some again)) :
    again.hash = s.hash := by
  obtain ⟨owner, values, now, before, created, hbefore, hsubscribe, hreaches, hfetch⟩ := h
  obtain ⟨target, slots, -, hcreate⟩ := Offer.declares_of_subscribe hsubscribe
  obtain ⟨ordered, inserted, -, hinsert, rfl⟩ := Manager.create_eq_ok_iff.mp hcreate
  have hkeeps := ConfiguredLedger.keeps_of_fetch_inserted hbefore hinsert hreaches hfetch
  have hkeeps' := ConfiguredLedger.keeps_of_fetch_inserted hbefore hinsert
    (hreaches.trans hlater) hagain
  have hbytes : again.hashedBytes = s.hashedBytes := by
    rw [Subscription.hashedBytes_eq_iff, hkeeps.target, hkeeps.owner, hkeeps.values,
      hkeeps'.target, hkeeps'.owner, hkeeps'.values]
    exact ⟨rfl, rfl, rfl⟩
  exact congrArg Keccak.digest hbytes

/-- Its owner can switch it, and then it is found in its new state with the same hash. -/
theorem hash_of_setEnabled {caller : Address} {enabled : Bool} {next : ConfiguredLedger}
    (hcall : Manager.setEnabled id caller enabled ledger = .ok ((), next)) :
    ∃ switched, Ledger.fetch next id = .ok (some switched) ∧ switched.enabled = enabled ∧
      switched.hash = s.hash := by
  obtain ⟨-, -, -, hstep⟩ := Manager.setEnabled_eq_ok_iff.mp hcall
  obtain ⟨owner, values, now, before, created, -, -, -, hfetch⟩ := h
  exact ⟨_, ConfiguredLedger.fetch_of_setEnabled hfetch hstep, rfl, rfl⟩

end AcceptedAs

/-- **The hash binds the content.** Take two subscriptions that were accepted, each for a single
    strategy or for a bundle, on ledgers that may belong to different processes. Without a
    collision among what is hashed for their ids, keys and contents, their hashes are equal exactly
    if their targets, owners and named values are, whatever their numbers and states. What is found
    under the number later has the same hash, and so has the subscription when it is switched. -/
theorem hash_eq_iff_content_eq {offer₁ offer₂ : Offer} (h₁ : offer₁.Sound) (h₂ : offer₂.Sound)
    (hencodings : Set.InjOn Keccak.digest (offer₁.encodings ∪ offer₂.encodings))
    (hkeys : Set.InjOn Keccak.digest (offer₁.keys ∪ offer₂.keys)) {id₁ id₂ : Nat}
    {ledger₁ ledger₂ : ConfiguredLedger} {s₁ s₂ : Subscription}
    (haccepted₁ : AcceptedAs offer₁ id₁ ledger₁ s₁) (haccepted₂ : AcceptedAs offer₂ id₂ ledger₂ s₂)
    (hcontents : Set.InjOn Keccak.digest {s₁.hashedBytes, s₂.hashedBytes}) :
    (s₁.hash = s₂.hash ↔
        s₁.target = s₂.target ∧ s₁.owner = s₂.owner ∧ s₁.values = s₂.values) ∧
      (∀ later, ConfiguredLedger.Reaches ledger₁ later →
        ∀ again, Ledger.fetch later id₁ = .ok (some again) → again.hash = s₁.hash) ∧
      ∀ caller enabled next, Manager.setEnabled id₁ caller enabled ledger₁ = .ok ((), next) →
        ∃ switched, Ledger.fetch next id₁ = .ok (some switched) ∧ switched.enabled = enabled ∧
          switched.hash = s₁.hash := by
  refine ⟨⟨?_, ?_⟩, fun later hlater again hagain => haccepted₁.hash_of_fetch hlater hagain,
    fun caller enabled next hcall => haccepted₁.hash_of_setEnabled hcall⟩
  · intro hhash
    have hbytes : s₁.hashedBytes = s₂.hashedBytes := hcontents (.inl rfl) (.inr rfl) hhash
    obtain ⟨htarget, howner, hwords⟩ := Subscription.hashedBytes_eq_iff.mp hbytes
    obtain ⟨slots₁, given₁, hdeclares₁, hstored₁⟩ := haccepted₁.exists_table
    obtain ⟨slots₂, given₂, hdeclares₂, hstored₂⟩ := haccepted₂.exists_table
    rw [← htarget] at hdeclares₂
    rw [← Offer.table_of_declares h₁ h₂ hencodings hkeys hdeclares₁ hdeclares₂] at hstored₂
    exact ⟨htarget, howner, values_of_words hstored₁ hstored₂ hwords⟩
  · intro hcontent
    obtain ⟨htarget, howner, hvalues⟩ := hcontent
    have hbytes : s₁.hashedBytes = s₂.hashedBytes :=
      Subscription.hashedBytes_eq_iff.mpr ⟨htarget, howner, by rw [hvalues]⟩
    exact congrArg Keccak.digest hbytes

/-! ## One content, held twice, and another -/

/-- What the subscription to `observingBundle` stores. -/
def observingContent : NewSubscription :=
  ⟨.bundle observingBundle.key, 5, [("vault", .uint 9 256)], .epoch⟩

/-- A process in which somebody has subscribed before. -/
def earlierMemory : MemoryLedger :=
  (MemoryLedger.empty.add ⟨.bundle drawBundle.key, 6, [("vault", .uint 9 256)], .epoch⟩).2

/-- The subscription under the next number, switched off. -/
def observingStored : Subscription :=
  ⟨2, .bundle observingBundle.key, 5, [("vault", .uint 9 256)], false, .epoch⟩

theorem acceptedAs_drawStored :
    AcceptedAs (.bundle drawLibrary 0) 1 (.readOnly drawTables) drawStored :=
  ⟨5, drawValues, .epoch, .tables .empty, .tables drawTables, .inr .refl, subscribeBundle_draw,
    .single (.openForReading drawTables), (Manager.loadActive_eq_ok_iff.mp loadActive_drawTables).1⟩

theorem subscribeBundle_observing : Manager.subscribeBundle laterLibrary 1 5 drawValues .epoch
    (ConfiguredLedger.memory earlierMemory) =
      .ok (2, .memory (earlierMemory.add observingContent).2) :=
  Manager.subscribeBundle_eq_ok_iff.mpr ⟨draw.subSlots, observingBundle.key, subSlots_laterLibrary,
    Library.bundleKey_of_bundle bundle_laterLibrary,
    Manager.create_eq_ok_iff.mpr ⟨_, _, rfl, rfl, rfl⟩⟩

/-- The ledger behind the switch. -/
def switchedMemory : ConfiguredLedger :=
  .memory ((earlierMemory.add observingContent).2.setEnabled 2 false).2

theorem acceptedAs_observingStored :
    AcceptedAs (.bundle laterLibrary 1) 2 switchedMemory observingStored := by
  have hswitch : Ledger.setEnabled
      (ConfiguredLedger.memory (earlierMemory.add observingContent).2) 2 false =
      .ok (true, switchedMemory) := rfl
  exact ⟨5, drawValues, .epoch, .memory earlierMemory, _, .inl (.single (.call (.insert rfl))),
    subscribeBundle_observing, .single (.call (.setEnabled hswitch)), rfl⟩

/-- A state with the same word as the vault of `drawStored`, for the same owner. -/
def ratioContent : NewSubscription :=
  ⟨.bundle ratioBundle.key, 5, [("state", .uint 9 8)], .epoch⟩

/-- The subscription of a further process to `ratioBundle`. -/
def ratioStored : Subscription :=
  ⟨1, .bundle ratioBundle.key, 5, [("state", .uint 9 8)], true, .epoch⟩

theorem acceptedAs_ratioStored : AcceptedAs (.bundle ratioLibrary 0) 1
    (.memory (MemoryLedger.empty.add ratioContent).2) ratioStored :=
  ⟨5, NameMap.ofList [("state", .uint 9 8)], .epoch, .memory .empty, _, .inl .refl,
    Manager.subscribeBundle_eq_ok_iff.mpr ⟨ratio.subSlots, ratioBundle.key, subSlots_ratioLibrary,
      Library.bundleKey_of_bundle bundle_ratioLibrary,
      Manager.create_eq_ok_iff.mpr ⟨_, _, rfl, rfl, rfl⟩⟩, .refl, rfl⟩

theorem hash_drawStored : drawStored.hash =
    0x1d0ba76895a6b0c398adb61d85d82bf926e6c15174327cfd52c7cecc9ead5b32 := by
  unfold Subscription.hash Subscription.hashedBytes drawStored
  rw [Keccak.digest_eq_byPlanes, Target.digest, key_drawBundle]
  decide +kernel

theorem hash_ratioStored : ratioStored.hash =
    0xa9791add42f3d926fa4b8156701ed31ac138cd542d27c1ef6ef2c5acebc210a8 := by
  unfold Subscription.hash Subscription.hashedBytes ratioStored
  rw [Keccak.digest_eq_byPlanes, Target.digest, key_ratioBundle]
  decide +kernel

/-- Among what is hashed for `drawStored` and `ratioStored` there is no collision. -/
theorem injOn_hashedBytes :
    Set.InjOn Keccak.digest {drawStored.hashedBytes, ratioStored.hashedBytes} := by
  have hne : drawStored.hash ≠ ratioStored.hash := by
    rw [hash_drawStored, hash_ratioStored]
    decide
  rw [Set.injOn_pair]
  exact fun hdigest => absurd hdigest hne

/-- The content of `drawStored` is held in another process under another number, and that of
    `ratioStored` is a different one. -/
theorem hash_eq_iff_content_eq_draw :
    ((observingStored.hash = drawStored.hash ↔ observingStored.target = drawStored.target ∧
        observingStored.owner = drawStored.owner ∧ observingStored.values = drawStored.values) ∧
      (∀ later, ConfiguredLedger.Reaches switchedMemory later →
        ∀ again, Ledger.fetch later 2 = .ok (some again) → again.hash = observingStored.hash) ∧
      ∀ caller enabled next,
        Manager.setEnabled 2 caller enabled switchedMemory = .ok ((), next) →
          ∃ switched, Ledger.fetch next 2 = .ok (some switched) ∧ switched.enabled = enabled ∧
            switched.hash = observingStored.hash) ∧
      drawStored.target ≠ ratioStored.target ∧
      (drawStored.hash = ratioStored.hash ↔ drawStored.target = ratioStored.target ∧
        drawStored.owner = ratioStored.owner ∧ drawStored.values = ratioStored.values) := by
  have hcontents : observingStored.hashedBytes = drawStored.hashedBytes :=
    Subscription.hashedBytes_eq_iff.mpr ⟨rfl, rfl, rfl⟩
  have hkeys : observingBundle.keyBytes = drawBundle.keyBytes := rfl
  refine ⟨hash_eq_iff_content_eq
    (show (Offer.bundle laterLibrary 1).Sound from published_laterLibrary)
    (show (Offer.bundle drawLibrary 0).Sound from published_drawLibrary)
    ?_ ?_ acceptedAs_observingStored acceptedAs_drawStored ?_, ?_, ?_⟩
  · rw [Offer.encodings_bundle bundle_laterLibrary, Offer.encodings_bundle bundle_drawLibrary,
      Set.union_comm]
    exact subsingleton_encodings.injOn _
  · rw [Offer.keys_bundle bundle_laterLibrary, Offer.keys_bundle bundle_drawLibrary, hkeys,
      Set.union_self]
    exact Set.injOn_singleton _ _
  · rw [hcontents, Set.pair_eq_singleton]
    exact Set.injOn_singleton _ _
  · exact fun htarget => key_drawBundle_ne_key_ratioBundle (Target.bundle.inj htarget)
  · refine (hash_eq_iff_content_eq
      (show (Offer.bundle drawLibrary 0).Sound from published_drawLibrary)
      (show (Offer.bundle ratioLibrary 0).Sound from published_ratioLibrary)
      ?_ ?_ acceptedAs_drawStored acceptedAs_ratioStored injOn_hashedBytes).1
    · rw [Offer.encodings_bundle bundle_drawLibrary, Offer.encodings_bundle bundle_ratioLibrary]
      exact injOn_memberEncodings
    · rw [Offer.keys_bundle bundle_drawLibrary, Offer.keys_bundle bundle_ratioLibrary]
      exact injOn_keyBytes

end Autopilot
