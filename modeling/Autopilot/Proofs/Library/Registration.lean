/-
  Registering strategies one after the other.

  As long as the ids of the strategies differ where the strategies do, the library holds each
  of them once, under its id and at the place of its first registration (`Holds`). Without a
  collision of the hash this is so for built strategies, because the encoding determines them
  (`id_inj`), whether or not their constants fit.
-/
import Autopilot.Proofs.Library
import Autopilot.Proofs.Wire.Distinct
import Mathlib.Data.Finset.Card
import Mathlib.Data.Set.Function

namespace Autopilot.Library

/-! ## Places -/

/-- A place is kept, whatever is registered. -/
theorem place?_register {lib : Library} {id : StrategyId} {index : Nat}
    (h : lib.place? id = some index) (s : Strategy) :
    (lib.register s).2.place? id = some index := by
  cases hs : lib.place? s.id with
  | some other =>
    rw [register_of_place? hs]
    exact h
  | none =>
    obtain ⟨found, hfound⟩ := place?_eq_some_iff.mp h
    have hlt : index < lib.strategies.length := (List.getElem?_eq_some_iff.mp hfound).1
    refine place?_eq_some_iff.mpr ⟨found, ?_⟩
    unfold strategyAt? at hfound ⊢
    rw [strategies_register_of_new hs, List.getElem?_append_left hlt]
    exact hfound

/-- A strategy whose id is new gets the next place. -/
theorem place?_register_self {lib : Library} {s : Strategy} (h : lib.place? s.id = none) :
    (lib.register s).2.place? s.id = some lib.strategies.length := by
  refine place?_eq_some_iff.mpr ⟨s, ?_⟩
  unfold strategyAt?
  rw [strategies_register_of_new h, List.getElem?_concat_length]

/-! ## Many registrations -/

/-- Registers strategies one after the other; their ids come with the library behind them. -/
def registerAll (lib : Library) : List Strategy → List StrategyId × Library
  | [] => ([], lib)
  | s :: rest =>
    let (id, next) := lib.register s
    let (ids, last) := next.registerAll rest
    (id :: ids, last)

theorem registerAll_fst (lib : Library) (calls : List Strategy) :
    (lib.registerAll calls).1 = calls.map Strategy.id := by
  induction calls generalizing lib with
  | nil => rfl
  | cons s rest ih =>
    have hcons : (lib.registerAll (s :: rest)).1 =
        (lib.register s).1 :: ((lib.register s).2.registerAll rest).1 := rfl
    rw [hcons, register_fst, ih, List.map_cons]

theorem registerAll_append (lib : Library) (front back : List Strategy) :
    (lib.registerAll (front ++ back)).2 = ((lib.registerAll front).2.registerAll back).2 := by
  induction front generalizing lib with
  | nil => rfl
  | cons s rest ih => exact ih (lib.register s).2

theorem place?_registerAll {lib : Library} {id : StrategyId} {index : Nat}
    (h : lib.place? id = some index) (calls : List Strategy) :
    (lib.registerAll calls).2.place? id = some index := by
  induction calls generalizing lib with
  | nil => exact h
  | cons s rest ih => exact ih (place?_register h s)

/-- The library holds the strategies of the calls, each once and under its id. -/
structure Holds (calls : List Strategy) (lib : Library) : Prop where
  filed : ∀ entry ∈ lib.strategies, entry.2.id = entry.1
  distinct : (lib.strategies.map (·.2)).Nodup
  mem : ∀ s, s ∈ lib.strategies.map (·.2) ↔ s ∈ calls

/-- An id stands for one strategy among those of the calls. -/
def IdsDistinct (calls : List Strategy) : Prop :=
  ∀ s ∈ calls, ∀ s' ∈ calls, s.id = s'.id → s = s'

theorem holds_empty : Holds [] empty := by
  refine ⟨?_, List.nodup_nil, fun s => Iff.rfl⟩
  intro entry hentry
  cases hentry

namespace Holds

variable {calls : List Strategy} {lib : Library}

theorem length_eq (h : Holds calls lib) : lib.strategies.length = calls.toFinset.card := by
  have hset : calls.toFinset = (lib.strategies.map (·.2)).toFinset := by
    ext s
    simp only [List.mem_toFinset, h.mem]
  rw [hset, List.toFinset_card_of_nodup h.distinct, List.length_map]

/-- What is filed under an id is among the calls and has this id. -/
theorem of_mem (h : Holds calls lib) {entry : StrategyId × Strategy}
    (hentry : entry ∈ lib.strategies) : entry.2 ∈ calls ∧ entry.2.id = entry.1 :=
  ⟨(h.mem entry.2).mp (List.mem_map_of_mem hentry), h.filed entry hentry⟩

/-- An id that no call registered has no place. -/
theorem place?_eq_none (h : Holds calls lib) {id : StrategyId}
    (hid : ∀ s ∈ calls, s.id ≠ id) : lib.place? id = none := by
  refine place?_eq_none_iff.mpr fun entry hentry heq => ?_
  obtain ⟨hmem, hfiled⟩ := h.of_mem hentry
  exact hid entry.2 hmem (hfiled.trans heq)

theorem get_eq (h : Holds calls lib) {s : Strategy} (hs : s ∈ calls) : lib.get s.id = .ok s := by
  obtain ⟨entry, hentry, rfl⟩ := List.mem_map.mp ((h.mem s).mpr hs)
  rw [get_eq_ok_iff_mem, h.filed entry hentry]
  exact hentry

/-- One more call adds its strategy, if it is new. -/
theorem register (h : Holds calls lib) {s : Strategy} (hids : IdsDistinct (calls ++ [s])) :
    Holds (calls ++ [s]) (lib.register s).2 := by
  have hself : s ∈ calls ++ [s] := List.mem_append_right calls List.mem_cons_self
  cases hplace : lib.place? s.id with
  | some index =>
    -- the id has a place, and what stands there can only be the strategy itself
    rw [register_of_place? hplace]
    obtain ⟨found, hfound⟩ := place?_eq_some_iff.mp hplace
    obtain ⟨hmem, hfiled⟩ := h.of_mem (List.mem_of_getElem? hfound)
    have hsame : found = s := hids found (List.mem_append_left [s] hmem) s hself hfiled
    refine ⟨h.filed, h.distinct, fun other => ?_⟩
    rw [h.mem, List.mem_append, List.mem_singleton]
    constructor
    · intro hother
      exact .inl hother
    · intro hother
      rcases hother with hother | hother
      · exact hother
      · rw [hother, ← hsame]
        exact hmem
  | none =>
    have hnone := place?_eq_none_iff.mp hplace
    have hnew : s ∉ lib.strategies.map (·.2) := by
      intro hmem
      obtain ⟨entry, hentry, hentry'⟩ := List.mem_map.mp hmem
      apply hnone entry hentry
      rw [← hentry', h.filed entry hentry]
    refine ⟨?_, ?_, fun other => ?_⟩
    · rw [strategies_register_of_new hplace]
      intro entry hentry
      rcases List.mem_append.mp hentry with hentry | hentry
      · exact h.filed entry hentry
      · rw [List.mem_singleton.mp hentry]
    · rw [strategies_register_of_new hplace, List.map_append]
      exact h.distinct.append (List.nodup_singleton s) (List.disjoint_singleton.mpr hnew)
    · rw [strategies_register_of_new hplace, List.map_append, List.mem_append, h.mem,
        List.mem_append]
      simp

theorem registerAll {more : List Strategy} (h : Holds calls lib)
    (hids : IdsDistinct (calls ++ more)) : Holds (calls ++ more) (lib.registerAll more).2 := by
  induction more generalizing calls lib with
  | nil =>
    rw [List.append_nil]
    exact h
  | cons s rest ih =>
    rw [List.append_cons] at hids ⊢
    have hfirst : IdsDistinct (calls ++ [s]) := fun t ht t' ht' =>
      hids t (List.mem_append_left rest ht) t' (List.mem_append_left rest ht')
    exact ih (h.register hfirst) hids

end Holds

/-! ## Content addresses -/

/-- Without a collision, built strategies of one id are the same. -/
theorem id_inj {calls : List Strategy} (hbuilt : ∀ s ∈ calls, s.Built)
    (hencodings : Set.InjOn Keccak.digest {bytes | ∃ s ∈ calls, Wire.encode s = bytes}) :
    IdsDistinct calls := by
  intro s hs s' hs' hid
  have hdigest : Keccak.digest (Wire.encode s) = Keccak.digest (Wire.encode s') :=
    congrArg StrategyId.digest hid
  have hbytes : Wire.encode s = Wire.encode s' :=
    hencodings ⟨s, hs, rfl⟩ ⟨s', hs', rfl⟩ hdigest
  exact Wire.encode_inj (hbuilt s hs) (hbuilt s' hs') hbytes

/-- What the ids that the calls returned stand for in the library behind them. -/
structure ContentAddressed (calls : List Strategy) (ids : List StrategyId) (lib : Library) :
    Prop where
  answered : ids.length = calls.length
  /-- Two calls return one id exactly if they register one strategy. -/
  same : ∀ (i j : Nat) (s s' : Strategy) (id id' : StrategyId), calls[i]? = some s →
    calls[j]? = some s' → ids[i]? = some id → ids[j]? = some id' → (id = id' ↔ s = s')
  /-- Repetitions do not count. -/
  count : lib.strategies.length = calls.toFinset.card
  /-- The place of an id is that of the first registration: behind the strategies, repetitions
      not counted, that were registered before it. What is called later does not matter. -/
  place : ∀ (front back : List Strategy) (s : Strategy) (id : StrategyId),
    calls = front ++ s :: back → s ∉ front → ids[front.length]? = some id →
      lib.indexOf id = .ok front.toFinset.card
  /-- An id stands for every strategy that was registered under it. -/
  found : ∀ (i : Nat) (s : Strategy) (id : StrategyId), calls[i]? = some s → ids[i]? = some id →
    lib.get id = .ok s ∧
      ∃ index, lib.indexOf id = .ok index ∧ lib.strategyAt? index = some (id, s)
  /-- No other id is known. -/
  unknown : ∀ id, id ∉ ids → lib.get id = .error (.unknownStrategy id.text) ∧
    lib.indexOf id = .error (.unknownStrategy id.text)
  /-- Later registrations, of whatever strategies, leave a place as it is. -/
  lasting : ∀ (id : StrategyId) (index : Nat) (more : List Strategy),
    lib.indexOf id = .ok index → (lib.registerAll more).2.indexOf id = .ok index

theorem indexOf_first {calls front back : List Strategy} {s : Strategy}
    (hids : IdsDistinct calls) (hcalls : calls = front ++ s :: back) (hnew : s ∉ front) :
    (empty.registerAll calls).2.indexOf s.id = .ok front.toFinset.card := by
  have hself : s ∈ calls := by simp [hcalls]
  have hbefore : ∀ t ∈ front, t ∈ calls := fun t ht => by simp [hcalls, ht]
  have hfront : Holds front (empty.registerAll front).2 := by
    have hdistinct : IdsDistinct ([] ++ front) := fun t ht t' ht' =>
      hids t (hbefore t ht) t' (hbefore t' ht')
    exact holds_empty.registerAll hdistinct
  have hnone : (empty.registerAll front).2.place? s.id = none := by
    refine hfront.place?_eq_none fun t ht heq => ?_
    rw [hids t (hbefore t ht) s hself heq] at ht
    exact hnew ht
  rw [indexOf_eq_ok_iff, hcalls, registerAll_append, ← hfront.length_eq]
  exact place?_registerAll (place?_register_self hnone) back

/-- **Content addressing.** Without a collision among the encodings, registrations of built
    strategies give one id and one place to each strategy, however often it is registered. -/
theorem registerAll_contentAddressed {calls : List Strategy}
    (hbuild : ∀ s ∈ calls, ∃ d : Draft, d.build = .ok s)
    (hencodings : Set.InjOn Keccak.digest {bytes | ∃ s ∈ calls, Wire.encode s = bytes}) :
    ContentAddressed calls (empty.registerAll calls).1 (empty.registerAll calls).2 := by
  have hbuilt : ∀ s ∈ calls, s.Built := by
    intro s hs
    obtain ⟨d, hd⟩ := hbuild s hs
    exact (build_eq_ok_iff.mp hd).2
  have hids : IdsDistinct calls := id_inj hbuilt hencodings
  have hholds : Holds calls (empty.registerAll calls).2 := holds_empty.registerAll hids
  have hanswers : (empty.registerAll calls).1 = calls.map Strategy.id := registerAll_fst empty calls
  have hanswer : ∀ (i : Nat) (s : Strategy) (id : StrategyId), calls[i]? = some s →
      (empty.registerAll calls).1[i]? = some id → s ∈ calls ∧ s.id = id := by
    intro i s id hs hid
    rw [hanswers, List.getElem?_map, hs] at hid
    exact ⟨List.mem_of_getElem? hs, Option.some.inj hid⟩
  refine ⟨?_, ?_, hholds.length_eq, ?_, ?_, ?_, ?_⟩
  · rw [hanswers, List.length_map]
  · intro i j s s' id id' hs hs' hid hid'
    obtain ⟨hmem, rfl⟩ := hanswer i s id hs hid
    obtain ⟨hmem', rfl⟩ := hanswer j s' id' hs' hid'
    exact ⟨hids s hmem s' hmem', congrArg Strategy.id⟩
  · intro front back s id hcalls hnew hid
    have hs : calls[front.length]? = some s := by simp [hcalls]
    obtain ⟨-, rfl⟩ := hanswer _ s id hs hid
    exact indexOf_first hids hcalls hnew
  · intro i s id hs hid
    obtain ⟨hmem, rfl⟩ := hanswer i s id hs hid
    have hget := hholds.get_eq hmem
    obtain ⟨index, hindex⟩ := exists_index hget
    exact ⟨hget, index, hindex, strategyAt?_of_indexOf hget hindex⟩
  · intro id hid
    have hother : ∀ s ∈ calls, s.id ≠ id := by
      intro s hs heq
      rw [hanswers] at hid
      exact hid (List.mem_map.mpr ⟨s, hs, heq⟩)
    have hnone := hholds.place?_eq_none hother
    refine ⟨get_eq_error_of_place? hnone, ?_⟩
    unfold indexOf
    rw [hnone]
  · intro id index more hindex
    rw [indexOf_eq_ok_iff] at hindex ⊢
    exact place?_registerAll hindex more

/-- Two strategies, one of them published twice. -/
theorem registerAll_contentAddressed_draw :
    ContentAddressed [draw, ratio, draw] (empty.registerAll [draw, ratio, draw]).1
      (empty.registerAll [draw, ratio, draw]).2 := by
  refine registerAll_contentAddressed ?_ (injOn_encodings.mono ?_)
  · intro s hs
    simp only [List.mem_cons, List.not_mem_nil, or_false] at hs
    rcases hs with rfl | rfl | rfl
    · exact ⟨drawDraft, build_draw⟩
    · exact ⟨ratioDraft, build_ratio⟩
    · exact ⟨drawDraft, build_draw⟩
  · rintro bytes ⟨s, hs, rfl⟩
    simp only [List.mem_cons, List.not_mem_nil, or_false] at hs
    rcases hs with rfl | rfl | rfl
    · exact .inl rfl
    · exact .inr rfl
    · exact .inl rfl

end Autopilot.Library
