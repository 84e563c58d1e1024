/-
  Building accepts exactly the well-formed drafts, and changes nothing.

  Each check of a build is described by the rules that it enforces: the counts and names by
  `Draft.Shaped`, the look-ups by the catalogue, the pass over the operations by
  `Draft.Flowing`. `accepts_build` puts them together, and says that the strategy reads as
  the draft that it was built from.
-/
import Autopilot.Proofs.Strategy.Scan

namespace Autopilot

open Arguments

/-! ## Name, counts and sub-slots -/

theorem accepts_checkLimit (what : Counted) (count limit : Nat) :
    Accepts (checkLimit what count limit) (count ≤ limit) (fun _ => True) :=
  accepts_test _ _

theorem accepts_checkSubSlots (strategy : String) (earlier : List String)
    (slots : List SubSlot) :
    Accepts (checkSubSlots strategy earlier slots)
      ((∀ slot ∈ slots, slot.name ≠ "" ∧ slot.name ≠ proxySlot ∧ slot.name.utf8ByteSize ≤ 255) ∧
        (slots.map (·.name)).Nodup ∧ ∀ slot ∈ slots, slot.name ∉ earlier)
      (fun _ => True) := by
  induction slots generalizing earlier with
  | nil => exact accepts_ok (by simp) trivial
  | cons slot rest ih =>
    unfold checkSubSlots
    by_cases hname : slot.name = "" ∨ slot.name = proxySlot
    · rw [if_pos hname]
      refine accepts_error ?_
      rintro ⟨hnamed, -⟩
      obtain ⟨hempty, hproxy, -⟩ := hnamed slot List.mem_cons_self
      exact hname.elim hempty hproxy
    · rw [if_neg hname]
      by_cases hbytes : maxNameBytes < slot.name.utf8ByteSize
      · rw [if_pos hbytes]
        refine accepts_error ?_
        rintro ⟨hnamed, -⟩
        have := (hnamed slot List.mem_cons_self).2.2
        unfold maxNameBytes at hbytes
        omega
      · rw [if_neg hbytes]
        by_cases hearlier : slot.name ∈ earlier
        · rw [if_pos hearlier]
          exact accepts_error fun h => h.2.2 slot List.mem_cons_self hearlier
        · rw [if_neg hearlier]
          refine (ih (slot.name :: earlier)).imp ?_ (fun _ _ h => h)
          rw [not_or] at hname
          have hle : slot.name.utf8ByteSize ≤ 255 := Nat.le_of_not_lt hbytes
          simp only [List.map_cons, List.nodup_cons, List.forall_mem_cons, List.mem_map]
          constructor
          · rintro ⟨hnamed, hnodup, hfresh⟩
            refine ⟨⟨⟨hname.1, hname.2, hle⟩, hnamed⟩, ⟨?_, hnodup⟩, hearlier, ?_⟩
            · rintro ⟨other, hmem, heq⟩
              exact List.ne_of_not_mem_cons (hfresh other hmem) heq
            · exact fun other hmem => List.not_mem_of_not_mem_cons (hfresh other hmem)
          · rintro ⟨⟨-, hnamed⟩, ⟨hnew, hnodup⟩, -, hfresh⟩
            refine ⟨hnamed, hnodup, fun other hmem => ?_⟩
            refine List.not_mem_cons_of_ne_of_not_mem ?_ (hfresh other hmem)
            exact fun heq => hnew ⟨other, hmem, heq⟩

/-- A refusal in front of other checks. -/
theorem accepts_unless {ε α : Type} {c : Prop} [Decidable c] {e : ε} {rest : Unit → Except ε α}
    {p : Prop} {q : α → Prop} (h : Accepts (rest ()) p q) :
    Accepts (if c then (Except.error e >>= rest) else rest ()) (¬ c ∧ p) q := by
  by_cases hc : c
  · rw [if_pos hc]
    exact accepts_error fun hp => hp.1 hc
  · rw [if_neg hc]
    exact h.imp (by simp [hc]) (fun _ _ hq => hq)

theorem isBlankText_eq_false_iff (s : String) :
    ¬ Text.isBlankText s = true ↔ ∃ c ∈ s.toList, Text.isBlank c = false := by
  unfold Text.isBlankText
  simp

theorem accepts_checkShape (d : Draft) :
    Accepts d.checkShape d.Shaped (fun _ => True) := by
  unfold Draft.checkShape
  have hslots := accepts_checkSubSlots d.name [] d.subSlots
  have hcounts := (accepts_checkLimit .nameBytes d.name.utf8ByteSize maxStrategyNameBytes).bind
    fun _ _ => (accepts_checkLimit .actions d.actions.length maxActions).bind
    fun _ _ => (accepts_checkLimit .triggers d.triggers.length maxTriggers).bind
    fun _ _ => (accepts_checkLimit .subSlots d.subSlots.length maxSubSlots).bind
    fun _ _ => hslots
  refine Accepts.imp (accepts_unless (accepts_unless hcounts)) ?_ (fun _ _ h => h)
  rw [isBlankText_eq_false_iff, List.isEmpty_iff, ← ne_eq, ← List.length_pos_iff]
  constructor
  · rintro ⟨hblank, hpos, hname, hactions, htriggers, hcount, hnamed, hnodup, -⟩
    exact ⟨hblank, hname, hpos, hactions, htriggers, hcount, hnamed, hnodup⟩
  · intro h
    exact ⟨h.name_not_blank, h.actions_pos, h.name_bytes, h.actions_le, h.triggers_le,
      h.slots_le, h.slots_named, h.slots_distinct, by simp⟩

/-! ## Looking operations up -/

/-- No operation of the catalogue has more parameters than a byte counts. -/
theorem arity_le_of_find? {kind : OperationKind} {name : String} {signature : Signature}
    (h : Catalogue.find? kind name = some signature) : signature.arity ≤ 6 := by
  have hall : ∀ kind, ∀ s ∈ Catalogue.entries kind, s.arity ≤ 6 := by
    intro kind
    cases kind with
    | action => decide
    | trigger => decide
  exact hall kind signature (List.mem_of_find?_eq_some h)

theorem accepts_checkPlaceholder (operation : String) (binding : Binding) :
    Accepts (checkPlaceholder operation binding)
      (∀ name, binding = .placeholder name → name ≠ "" ∧ name.utf8ByteSize ≤ 255)
      (fun _ => True) := by
  cases binding with
  | placeholder name =>
    unfold checkPlaceholder
    dsimp only
    by_cases hname : name = ""
    · rw [if_pos hname]
      exact accepts_error fun h => (h name rfl).1 hname
    · rw [if_neg hname]
      refine (accepts_checkLimit _ _ _).imp ?_ (fun _ _ h => h)
      constructor
      · rintro hle other heq
        cases heq
        exact ⟨hname, hle⟩
      · exact fun h => (h name rfl).2
  | const value => exact accepts_ok (by simp) trivial
  | subSlot name => exact accepts_ok (by simp) trivial
  | piped index => exact accepts_ok (by simp) trivial

theorem accepts_resolve (kind : OperationKind) (op : DraftOperation) :
    Accepts (op.resolve kind) (op.Catalogued kind ∧ op.PlaceholdersNamed)
      (fun o => o.toDraft = op ∧ o.Catalogued kind) := by
  unfold DraftOperation.resolve
  cases hfind : Catalogue.find? kind op.name with
  | none =>
    refine accepts_error ?_
    rintro ⟨⟨signature, hsignature, -⟩, -⟩
    rw [hfind] at hsignature
    cases hsignature
  | some signature =>
    have hname : signature.name = op.name := Catalogue.name_of_find? hfind
    have hplaceholders := accepts_forM fun binding (_ : binding ∈ op.bindings) =>
      accepts_checkPlaceholder signature.name binding
    have hresult : Accepts
        (if op.bindings.length = signature.arity then .ok ⟨signature, op.bindings⟩
          else .error (.arityMismatch signature.name signature.arity op.bindings.length) :
            Except Fault Operation)
        (op.bindings.length = signature.arity)
        (fun o => o.toDraft = op ∧ o.Catalogued kind) := by
      by_cases hlength : op.bindings.length = signature.arity
      · rw [if_pos hlength]
        refine accepts_ok hlength ⟨?_, ?_⟩
        · unfold Operation.toDraft Operation.name
          rw [hname]
        · unfold Operation.Catalogued Operation.name
          rw [hname]
          exact hfind
      · rw [if_neg hlength]
        exact accepts_error hlength
    refine Accepts.imp ((accepts_checkLimit .parameters op.bindings.length maxParameters).bind
      fun _ _ => hplaceholders.bind fun _ _ => hresult) ?_ (fun _ _ h => h)
    have harity := arity_le_of_find? hfind
    constructor
    · rintro ⟨-, hnamed, hlength⟩
      exact ⟨⟨signature, hfind, hlength⟩, fun name hmem => hnamed _ hmem name rfl⟩
    · rintro ⟨⟨signature', hfind', hlength⟩, hnamed⟩
      rw [hfind] at hfind'
      cases hfind'
      refine ⟨?_, ?_, hlength⟩
      · unfold maxParameters
        omega
      · rintro binding hmem name rfl
        exact hnamed name hmem

theorem accepts_resolve_all (kind : OperationKind) (ops : List DraftOperation) :
    Accepts (ops.mapM (DraftOperation.resolve kind))
      (∀ op ∈ ops, op.Catalogued kind ∧ op.PlaceholdersNamed)
      (fun resolved => resolved.map Operation.toDraft = ops ∧
        ∀ op ∈ resolved, op.Catalogued kind) := by
  refine (accepts_mapM fun op _ => accepts_resolve kind op).imp Iff.rfl ?_
  rintro resolved - h
  induction h with
  | nil => simp
  | cons hop _ ih =>
    rw [List.map_cons, hop.1, ih.1, List.forall_mem_cons]
    exact ⟨rfl, hop.2, ih.2⟩

/-! ## The rules of the pass, for drafts -/

theorem uses_map_fst (bindings : List Binding) (params : List Parameter)
    (h : bindings.length = params.length) :
    (uses (bindings.zip params)).map (·.1) = bindings.filterMap Binding.placeholder? := by
  induction bindings generalizing params with
  | nil => rfl
  | cons binding rest ih =>
    cases params with
    | nil => cases h
    | cons param params =>
      have hrest := ih params (Nat.succ.inj h)
      rw [List.zip_cons_cons]
      cases binding with
      | placeholder name => rw [Dataflow.uses_cons_placeholder, List.map_cons, hrest]; rfl
      | const value => rw [Dataflow.uses_cons_of_none _ rfl, hrest]; rfl
      | subSlot name => rw [Dataflow.uses_cons_of_none _ rfl, hrest]; rfl
      | piped index => rw [Dataflow.uses_cons_of_none _ rfl, hrest]; rfl

theorem argumentsTyped_iff {slots : List SubSlot} (hdistinct : (slots.map (·.name)).Nodup)
    (husable : ∀ slot ∈ slots, slot.name ≠ proxySlot) (args : Arguments) :
    (∀ binding param, (binding, param) ∈ args → Dataflow.ArgumentTyped slots binding param) ↔
      args.ConstsTyped ∧ args.SlotsTyped slots := by
  constructor
  · intro h
    refine ⟨fun value param hmem => (h _ param hmem).symm, fun name param hmem => ?_⟩
    exact (slotType?_eq_some_iff hdistinct husable).mp (h _ param hmem)
  · rintro ⟨hconsts, hslots⟩ binding param hmem
    cases binding with
    | const value => exact (hconsts value param hmem).symm
    | subSlot name =>
      exact (slotType?_eq_some_iff hdistinct husable).mpr (hslots name param hmem)
    | placeholder name => trivial
    | piped index => trivial

section Catalogued

variable {s : Strategy}

/-- A rule for the arguments of every operation may be read on the strategy or on its draft. -/
theorem forall_operations_iff (hs : s.Catalogued) (rule : Arguments → Prop) :
    (∀ kind, ∀ op ∈ s.toDraft.operations kind, rule (op.arguments kind)) ↔
      ∀ op ∈ s.triggers ++ s.actions, rule op.arguments := by
  constructor
  · intro h op hmem
    rcases List.mem_append.mp hmem with htrigger | haction
    · rw [← arguments_toDraft (hs .trigger op htrigger)]
      exact h .trigger _ (List.mem_map_of_mem htrigger)
    · rw [← arguments_toDraft (hs .action op haction)]
      exact h .action _ (List.mem_map_of_mem haction)
  · intro h kind op hmem
    rw [Strategy.operations_toDraft] at hmem
    obtain ⟨o, ho, rfl⟩ := List.mem_map.mp hmem
    rw [arguments_toDraft (hs kind o ho)]
    refine h o (List.mem_append.mpr ?_)
    cases kind with
    | trigger => exact .inl ho
    | action => exact .inr ho

theorem uses_toDraft (hs : s.Catalogued) :
    s.toDraft.uses = Dataflow.usesOf s.triggers ++ Dataflow.usesOf s.actions := by
  have hkind : ∀ kind (ops : List Operation), (∀ op ∈ ops, op.Catalogued kind) →
      (ops.map Operation.toDraft).flatMap (fun op => (op.arguments kind).uses) =
        Dataflow.usesOf ops := by
    intro kind ops hops
    unfold Dataflow.usesOf
    rw [List.flatMap_map]
    exact List.flatMap_congr fun op hmem => by rw [arguments_toDraft (hops op hmem)]
  unfold Draft.uses
  exact congrArg₂ (· ++ ·) (hkind .trigger _ (hs .trigger)) (hkind .action _ (hs .action))

theorem returns_take_toDraft (hs : s.Catalogued) (n : Nat) :
    (s.toDraft.actions.take n).map (·.returns) =
      (s.actions.take n).map (·.signature.returns) := by
  unfold Strategy.toDraft
  rw [← List.map_take, List.map_map]
  refine List.map_congr_left fun op hmem => ?_
  exact returns_toDraft (hs .action op (List.mem_of_mem_take hmem))

theorem placeholdersOnce_iff {kind : OperationKind} {op : DraftOperation}
    (h : op.Catalogued kind) :
    op.PlaceholdersOnce ↔ ((op.arguments kind).uses.map (·.1)).Nodup := by
  obtain ⟨signature, hfind, hlength⟩ := h
  unfold DraftOperation.PlaceholdersOnce DraftOperation.arguments
  rw [hfind]
  dsimp only
  rw [uses_map_fst _ _ hlength]

/-- The rules of the pass are those of the draft that the strategy reads as. -/
theorem flowing_toDraft_iff (hs : s.Catalogued)
    (hops : ∀ kind, ∀ op ∈ s.toDraft.operations kind, op.Catalogued kind)
    (hdistinct : (s.subSlots.map (·.name)).Nodup)
    (husable : ∀ slot ∈ s.subSlots, slot.name ≠ proxySlot) :
    s.toDraft.Flowing ↔ Dataflow.Sound s.subSlots s.triggers s.actions := by
  have honce := forall_operations_iff hs fun args => (args.uses.map (·.1)).Nodup
  have hconsts := forall_operations_iff hs ConstsTyped
  have hslots := forall_operations_iff hs (SlotsTyped s.subSlots)
  constructor
  · intro h
    refine ⟨?_, ?_, ?_, ?_⟩
    · intro op hmem
      rw [← arguments_toDraft (hs .trigger op hmem)]
      exact h.trigger_inputs _ (List.mem_map_of_mem hmem)
    · intro i op hop
      have hmem := List.mem_of_getElem? hop
      rw [← arguments_toDraft (hs .action op hmem), ← returns_take_toDraft hs]
      refine h.pipes_backwards i _ ?_
      unfold Strategy.toDraft
      rw [List.getElem?_map, hop]
      rfl
    · intro op hmem
      refine ⟨(argumentsTyped_iff hdistinct husable _).mpr ⟨?_, ?_⟩, ?_⟩
      · exact hconsts.mp h.consts_typed op hmem
      · exact hslots.mp h.slots_typed op hmem
      · refine honce.mp (fun kind o ho => ?_) op hmem
        exact (placeholdersOnce_iff (hops kind o ho)).mp (h.placeholders_once kind o ho)
    · rw [← uses_toDraft hs]
      exact h.placeholders_typed
  · intro h
    have htyped := fun op hmem =>
      (argumentsTyped_iff hdistinct husable _).mp (h.inputs op hmem).1
    refine ⟨?_, ?_, ?_, ?_, ?_, ?_⟩
    · intro kind op hmem
      rw [placeholdersOnce_iff (hops kind op hmem)]
      exact honce.mpr (fun o ho => (h.inputs o ho).2) kind op hmem
    · rw [uses_toDraft hs]
      exact h.oneType
    · exact hconsts.mpr fun op hmem => (htyped op hmem).1
    · exact hslots.mpr fun op hmem => (htyped op hmem).2
    · intro op hmem
      obtain ⟨o, ho, rfl⟩ := List.mem_map.mp hmem
      rw [arguments_toDraft (hs .trigger o ho)]
      exact h.trigger_inputs o ho
    · intro i op hop
      unfold Strategy.toDraft at hop
      rw [List.getElem?_map, Option.map_eq_some_iff] at hop
      obtain ⟨o, ho, rfl⟩ := hop
      rw [arguments_toDraft (hs .action o (List.mem_of_getElem? ho)), returns_take_toDraft hs]
      exact h.pipes_backwards i o ho

end Catalogued

/-! ## Building -/

/-- The last part of a build, for a strategy whose operations are looked up. -/
theorem accepts_flow {s : Strategy} (hs : s.Catalogued) (hshaped : s.toDraft.Shaped)
    (hops : ∀ kind, ∀ op ∈ s.toDraft.operations kind, op.Catalogued kind) :
    Accepts
      (do
        Dataflow.check s.subSlots s.triggers s.actions
        pure s)
      s.toDraft.Flowing (fun s' => s' = s) := by
  have husable : ∀ slot ∈ s.subSlots, slot.name ≠ proxySlot :=
    fun slot hmem => (hshaped.slots_named slot hmem).2.1
  have hflowing := flowing_toDraft_iff hs hops hshaped.slots_distinct husable
  refine Accepts.imp ((Dataflow.accepts_check s.subSlots s.triggers s.actions).bind
    fun _ _ => accepts_ok trivial rfl) ?_ (fun _ _ h => h.symm)
  rw [hflowing, and_true]

/-- A build accepts exactly the well-formed drafts; its strategy reads as the draft and has the
    operations of the catalogue. -/
theorem accepts_build (d : Draft) :
    Accepts d.build d.WellFormed (fun s => s.toDraft = d ∧ s.Catalogued) := by
  unfold Draft.build
  refine Accepts.imp ((accepts_checkShape d).known.bind fun _ hshaped =>
    (accepts_resolve_all .trigger d.triggers).known.bind fun triggers ht =>
    (accepts_resolve_all .action d.actions).known.bind fun actions ha => ?_)
    (p := d.Shaped ∧ (∀ op ∈ d.triggers, op.Catalogued .trigger ∧ op.PlaceholdersNamed) ∧
      (∀ op ∈ d.actions, op.Catalogued .action ∧ op.PlaceholdersNamed) ∧ d.Flowing)
    ?_ (fun _ _ h => h)
  · let s : Strategy := ⟨d.name, d.flavor, d.subSlots, triggers, actions⟩
    have hd : s.toDraft = d := by
      unfold Strategy.toDraft
      rw [ht.2.1, ha.2.1]
    have hs : s.Catalogued := by
      rintro (_ | _)
      · exact ha.2.2
      · exact ht.2.2
    have hops : ∀ kind, ∀ op ∈ s.toDraft.operations kind, op.Catalogued kind := by
      rw [hd]
      rintro (_ | _) op hmem
      · exact (ha.1 op hmem).1
      · exact (ht.1 op hmem).1
    have hflow := accepts_flow hs (hd.symm ▸ hshaped.1) hops
    rw [hd] at hflow
    refine hflow.imp Iff.rfl ?_
    rintro s' - rfl
    exact ⟨hd, hs⟩
  · constructor
    · rintro ⟨hshaped, ht, ha, hflowing⟩
      refine ⟨hshaped, hflowing, ?_, ?_⟩
      · rintro (_ | _) op hmem
        · exact (ha op hmem).1
        · exact (ht op hmem).1
      · rintro (_ | _) op hmem
        · exact (ha op hmem).2
        · exact (ht op hmem).2
    · intro h
      refine ⟨h.toShaped, ?_, ?_, h.toFlowing⟩
      · exact fun op hmem => ⟨h.catalogued .trigger op hmem, h.placeholders_named .trigger op hmem⟩
      · exact fun op hmem => ⟨h.catalogued .action op hmem, h.placeholders_named .action op hmem⟩

/-- **Building.** A draft can be built exactly when it is well-formed, and the strategy then has
    the draft's name, flavor, sub-slots, operations and bindings, in order, with the signatures
    that the catalogue lists for the names. -/
theorem build_accepts_exactly_wellFormed (d : Draft) :
    ((∃ s, d.build = .ok s) ↔ d.WellFormed) ∧
      ∀ s, d.build = .ok s →
        s.name = d.name ∧ s.flavor = d.flavor ∧ s.subSlots = d.subSlots ∧
        s.triggers.map (fun op => (⟨op.name, op.bindings⟩ : DraftOperation)) = d.triggers ∧
        s.actions.map (fun op => (⟨op.name, op.bindings⟩ : DraftOperation)) = d.actions ∧
        (∀ op ∈ s.triggers, Catalogue.find? .trigger op.name = some op.signature) ∧
        ∀ op ∈ s.actions, Catalogue.find? .action op.name = some op.signature := by
  have hbuild := accepts_build d
  refine ⟨hbuild.exists_ok_iff, ?_⟩
  intro s hs
  obtain ⟨-, hd, hcatalogued⟩ := hbuild.2 s hs
  subst hd
  exact ⟨rfl, rfl, rfl, rfl, rfl, hcatalogued .trigger, hcatalogued .action⟩

end Autopilot
