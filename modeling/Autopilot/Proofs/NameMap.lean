/-
  Maps that are filled from lists, from other maps, or name by name.

  A list that gives every name one value is filed as it is: the map finds what the list holds
  (`find?_ofList_iff`), and if no name stands twice, the names of the map are those of the list in
  another order (`keys_perm_ofList`). Filing under a name twice is filing the second time only.

  Maps that find the same are the same (`ext_find?`). In a map laid over another the upper one is
  asked first (`find?_override`). A map that is computed name by name has the names of the first
  (`mapM_eq_ok`), or fails with the failure of the least name that has one (`mapM_eq_error_iff`).
-/
import Autopilot.NameMap
import Autopilot.Proofs.Outcome
import Mathlib.Data.List.Induction
import Mathlib.Data.List.Nodup
import Mathlib.Data.List.Sort

namespace Autopilot.NameMap

variable {α β : Type}

/-! ## Entries -/

theorem lookup_eq_some_iff {es : List (String × α)} (h : es.Pairwise fun a b => a.1 < b.1)
    {name : String} {value : α} : lookup name es = some value ↔ (name, value) ∈ es := by
  induction es with
  | nil => simp [lookup]
  | cons head rest ih =>
    obtain ⟨other, held⟩ := head
    obtain ⟨hhead, hrest⟩ := List.pairwise_cons.mp h
    unfold lookup
    rw [List.mem_cons, Prod.mk.injEq]
    by_cases hname : name = other
    · have hfresh : (name, value) ∉ rest := by
        intro hmem
        have hlt : other < name := hhead _ hmem
        rw [hname] at hlt
        exact String.lt_irrefl other hlt
      rw [if_pos hname]
      simp [hname ▸ hfresh, hname, eq_comm]
    · rw [if_neg hname, ih hrest]
      simp [hname]

theorem find?_eq_some_iff {m : NameMap α} {name : String} {value : α} :
    m.find? name = some value ↔ (name, value) ∈ m.entries :=
  lookup_eq_some_iff m.sorted

theorem mem_keys_iff {m : NameMap α} {name : String} :
    name ∈ m.keys ↔ ∃ value, m.find? name = some value := by
  unfold keys
  simp [find?_eq_some_iff]

/-- Maps with the same names lack the same names. -/
theorem find?_eq_none_of_keys {m : NameMap α} {m' : NameMap β} (h : m.keys = m'.keys)
    {name : String} (hname : m.find? name = none) : m'.find? name = none := by
  have hkey : name ∉ m'.keys := by
    rw [← h, mem_keys_iff, hname]
    exact nofun
  exact Option.eq_none_iff_forall_not_mem.mpr fun value hvalue =>
    hkey (mem_keys_iff.mpr ⟨value, hvalue⟩)

theorem pairwise_keys (m : NameMap α) : m.keys.Pairwise (· < ·) :=
  List.pairwise_map.mpr m.sorted

theorem nodup_keys (m : NameMap α) : m.keys.Nodup := by
  refine m.pairwise_keys.imp fun {a b} hlt heq => ?_
  rw [heq] at hlt
  exact String.lt_irrefl b hlt

theorem keys_erase (m : NameMap α) (name : String) :
    (m.erase name).keys = m.keys.filter (· ≠ name) := by
  unfold keys erase
  rw [List.filter_map]
  refine congrArg (List.map _) (List.filter_congr fun e _ => ?_)
  by_cases h : e.1 = name
  · simp [h]
  · simp [h]

/-- What is filed first is gone when the name is filed again. -/
theorem place_place (name : String) (value value' : α) (es : List (String × α)) :
    place name value' (place name value es) = place name value' es := by
  induction es with
  | nil => simp [place]
  | cons head rest ih =>
    obtain ⟨other, held⟩ := head
    by_cases hname : name = other
    · simp [place, hname]
    · by_cases hlt : name < other
      · simp [place, hname, hlt]
      · simp [place, hname, hlt, ih]

theorem insert_insert (m : NameMap α) (name : String) (value value' : α) :
    (m.insert name value).insert name value' = m.insert name value' := by
  have hentries := place_place name value value' m.entries
  unfold insert
  simp only [hentries]

/-! ## Lists -/

theorem ofList_append_singleton (pairs : List (String × α)) (p : String × α) :
    ofList (pairs ++ [p]) = (ofList pairs).insert p.1 p.2 := by
  unfold ofList
  rw [List.foldl_append]
  rfl

/-- A list that gives every name one value is filed as it is. -/
theorem find?_ofList_iff {pairs : List (String × α)}
    (h : ∀ name value value', (name, value) ∈ pairs → (name, value') ∈ pairs → value = value')
    {name : String} {value : α} :
    (ofList pairs).find? name = some value ↔ (name, value) ∈ pairs := by
  induction pairs using List.reverseRecOn generalizing value with
  | nil => simp [ofList]
  | append_singleton pairs p ih =>
    have hfront : ∀ name value value', (name, value) ∈ pairs → (name, value') ∈ pairs →
        value = value' := by
      intro name value value' hmem hmem'
      exact h name value value' (List.mem_append_left _ hmem) (List.mem_append_left _ hmem')
    rw [ofList_append_singleton, find?_insert, List.mem_append, List.mem_singleton]
    by_cases hname : name = p.1
    · have hlast : (name, p.2) ∈ pairs ++ [p] := by simp [hname]
      rw [if_pos hname, Option.some.injEq]
      constructor
      · intro hvalue
        exact .inr (Prod.ext hname hvalue.symm)
      · intro hmem
        exact h name p.2 value hlast (by simpa using hmem)
    · have hother : (name, value) ≠ p := fun heq => hname (congrArg Prod.fst heq)
      rw [if_neg hname, ih hfront]
      simp [hother]

/-- Where no name stands twice, every name has one value. -/
theorem eq_of_nodup {pairs : List (String × α)} (h : (pairs.map (·.1)).Nodup) (name : String)
    (value value' : α) (hmem : (name, value) ∈ pairs) (hmem' : (name, value') ∈ pairs) :
    value = value' :=
  congrArg Prod.snd (List.inj_on_of_nodup_map h hmem hmem' rfl)

theorem keys_perm_ofList {pairs : List (String × α)} (h : (pairs.map (·.1)).Nodup) :
    (ofList pairs).keys.Perm (pairs.map (·.1)) := by
  refine (List.perm_ext_iff_of_nodup (nodup_keys _) h).mpr fun name => ?_
  simp [mem_keys_iff, find?_ofList_iff (eq_of_nodup h)]

/-! ## Extensionality -/

/-- No two entries stand in both orders. -/
theorem entries_eq_of_perm {m m' : NameMap α} (h : m.entries.Perm m'.entries) : m = m' := by
  have hentries : m.entries = m'.entries := by
    refine h.eq_of_pairwise (fun a b _ _ hab hba => ?_) m.sorted m'.sorted
    exact absurd (String.lt_trans hab hba) (String.lt_irrefl a.1)
  cases m
  cases m'
  cases hentries
  rfl

/-- Maps that find the same under every name are the same. -/
theorem ext_find? {m m' : NameMap α} (h : ∀ name, m.find? name = m'.find? name) : m = m' := by
  have hnodup : ∀ m : NameMap α, m.entries.Nodup := fun m => m.nodup_keys.of_map _
  refine entries_eq_of_perm ((List.perm_ext_iff_of_nodup (hnodup m) (hnodup m')).mpr ?_)
  rintro ⟨name, value⟩
  rw [← find?_eq_some_iff, ← find?_eq_some_iff, h]

/-- Entries in increasing order are filed as they stand. -/
theorem ofList_entries (m : NameMap α) : ofList m.entries = m := by
  refine ext_find? fun name => Option.ext fun value => ?_
  rw [find?_ofList_iff (eq_of_nodup m.nodup_keys), find?_eq_some_iff]

/-! ## Two maps -/

theorem find?_foldl_insert {es : List (String × α)} (h : es.Pairwise fun a b => a.1 < b.1)
    (m : NameMap α) (name : String) :
    (es.foldl (fun m e => m.insert e.1 e.2) m).find? name = (lookup name es).or (m.find? name) := by
  induction es generalizing m with
  | nil => rfl
  | cons head rest ih =>
    obtain ⟨other, held⟩ := head
    obtain ⟨hhead, hrest⟩ := List.pairwise_cons.mp h
    have hcons : lookup name ((other, held) :: rest) =
        if name = other then some held else lookup name rest := rfl
    rw [List.foldl_cons, ih hrest, find?_insert, hcons]
    by_cases hname : name = other
    · -- behind the first entry only greater names follow
      have hnone : lookup name rest = none := by
        refine Option.eq_none_iff_forall_ne_some.mpr fun value hvalue => ?_
        have hlt : other < name := hhead _ ((lookup_eq_some_iff hrest).mp hvalue)
        rw [hname] at hlt
        exact String.lt_irrefl other hlt
      rw [if_pos hname, if_pos hname, hnone, Option.none_or, Option.some_or]
    · rw [if_neg hname, if_neg hname]

/-- In a map that is laid over another one, a name is looked up in the upper map first. -/
theorem find?_override (m upper : NameMap α) (name : String) :
    (m.override upper).find? name = (upper.find? name).or (m.find? name) :=
  find?_foldl_insert upper.sorted m name

/-! ## Maps computed name by name -/

variable {ε : Type} {f : String → α → Except ε β} {m : NameMap α}

theorem sorted_of_keys_eq {pairs : List (String × β)} (h : pairs.map (·.1) = m.keys) :
    pairs.Pairwise fun a b => a.1 < b.1 := by
  have hkeys := m.pairwise_keys
  rw [← h] at hkeys
  exact List.pairwise_map.mp hkeys

theorem mapM_congr {g : String → α → Except ε β}
    (h : ∀ name value, m.find? name = some value → f name value = g name value) :
    m.mapM f = m.mapM g := by
  unfold mapM
  rw [Autopilot.mapM_congr]
  rintro ⟨name, value⟩ hentry
  dsimp only
  rw [h name value (find?_eq_some_iff.mpr hentry)]

/-- What a map is computed to has the same names, and under each of them what was computed. -/
theorem mapM_eq_ok {images : NameMap β} (h : m.mapM f = .ok images) :
    images.keys = m.keys ∧ ∀ name value, m.find? name = some value →
      ∃ image, f name value = .ok image ∧ images.find? name = some image := by
  unfold mapM at h
  obtain ⟨pairs, hpairs, himages⟩ := bind_eq_ok.mp h
  have hrelated : List.Forall₂ (fun e p => p.1 = e.1 ∧ f e.1 e.2 = .ok p.2) m.entries pairs := by
    refine (Autopilot.mapM_eq_ok.mp hpairs).imp fun e p hp => ?_
    obtain ⟨image, himage, hpair⟩ := bind_eq_ok.mp hp
    cases hpair
    exact ⟨rfl, himage⟩
  have hkeys : pairs.map (·.1) = m.keys := by
    have hnames : List.Forall₂ (· = ·) (pairs.map (·.1)) (m.entries.map (·.1)) := by
      rw [List.forall₂_map_left_iff, List.forall₂_map_right_iff]
      exact hrelated.flip.imp fun p e hp => hp.1
    rwa [List.forall₂_eq_eq_eq] at hnames
  have hentries : images = ⟨pairs, sorted_of_keys_eq hkeys⟩ := by
    cases himages
    exact ofList_entries ⟨pairs, sorted_of_keys_eq hkeys⟩
  rw [hentries]
  refine ⟨hkeys, fun name value hvalue => ?_⟩
  obtain ⟨i, hi, hentry⟩ := List.mem_iff_getElem.mp (find?_eq_some_iff.mp hvalue)
  have hi' : i < pairs.length := hrelated.length_eq ▸ hi
  obtain ⟨hname, himage⟩ := hrelated.get hi hi'
  rw [List.get_eq_getElem, List.get_eq_getElem, hentry] at hname himage
  have hpair : (name, pairs[i].2) = pairs[i] := Prod.ext hname.symm rfl
  refine ⟨pairs[i].2, himage, find?_eq_some_iff.mpr ?_⟩
  rw [hpair]
  exact List.getElem_mem hi'

/-- The computation fails with the failure of the least name that has one. -/
theorem mapM_eq_error_iff {e : ε} :
    m.mapM f = .error e ↔ ∃ name value, m.find? name = some value ∧ f name value = .error e ∧
      ∀ other value', other < name → m.find? other = some value' →
        ∃ image, f other value' = .ok image := by
  have hfails : m.mapM f = .error e ↔ ∃ front entry back, m.entries = front ++ entry :: back ∧
      (∀ earlier ∈ front, ∃ image, f earlier.1 earlier.2 = .ok image) ∧
        f entry.1 entry.2 = .error e := by
    unfold mapM
    rw [bind_eq_error, Autopilot.mapM_eq_error_iff]
    simp only [bind_eq_ok, bind_eq_error]
    simp [pure, Except.pure]
  rw [hfails]
  constructor
  · rintro ⟨front, ⟨name, value⟩, back, hsplit, hfront, hentry⟩
    have hsorted := m.sorted
    rw [hsplit, List.pairwise_append] at hsorted
    refine ⟨name, value, find?_eq_some_iff.mpr (by simp [hsplit]), hentry, ?_⟩
    intro other value' hlt hother
    rw [find?_eq_some_iff, hsplit, List.mem_append] at hother
    rcases hother with hother | hother
    · exact hfront _ hother
    · rcases List.mem_cons.mp hother with heq | hother
      · cases heq
        exact absurd hlt (String.lt_irrefl name)
      · have hgt : name < other := List.rel_of_pairwise_cons hsorted.2.1 hother
        exact absurd (String.lt_trans hlt hgt) (String.lt_irrefl other)
  · rintro ⟨name, value, hvalue, hentry, hsmaller⟩
    obtain ⟨front, back, hsplit⟩ := List.append_of_mem (find?_eq_some_iff.mp hvalue)
    have hsorted := m.sorted
    rw [hsplit, List.pairwise_append] at hsorted
    refine ⟨front, (name, value), back, hsplit, ?_, hentry⟩
    rintro ⟨other, value'⟩ hother
    have hlt : other < name := hsorted.2.2 _ hother _ List.mem_cons_self
    exact hsmaller other value' hlt (find?_eq_some_iff.mpr (by simp [hsplit, hother]))

end Autopilot.NameMap
