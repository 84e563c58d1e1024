/-
  Finite maps from names to values, entries in increasing order of name.

  Names are compared by code point, which for well-formed texts is also the order of
  their UTF-8 bytes. Order and distinctness of the names are part of the type, so two
  maps with the same entries are equal. Stated here: what a look-up finds after an
  insertion or a removal.
-/

namespace Autopilot

/-- A finite map from names to values. -/
structure NameMap (α : Type) where
  entries : List (String × α)
  sorted : entries.Pairwise (fun a b => a.1 < b.1)
  deriving DecidableEq

namespace NameMap

variable {α β : Type}

/-! ## On entry lists -/

/-- The first value filed under a name. -/
def lookup (name : String) : List (String × α) → Option α
  | [] => none
  | (other, value) :: rest => if name = other then some value else lookup name rest

/-- Files a value at its place, over a value of the same name. -/
def place (name : String) (value : α) : List (String × α) → List (String × α)
  | [] => [(name, value)]
  | (other, held) :: rest =>
    if name = other then (name, value) :: rest
    else if name < other then (name, value) :: (other, held) :: rest
    else (other, held) :: place name value rest

theorem eq_or_mem_of_mem_place {name : String} {value : α} {es : List (String × α)}
    {e : String × α} (h : e ∈ place name value es) : e = (name, value) ∨ e ∈ es := by
  induction es with
  | nil => simpa [place] using h
  | cons head rest ih =>
    obtain ⟨other, held⟩ := head
    simp only [place] at h
    split at h
    · rcases List.mem_cons.1 h with h | h
      · exact .inl h
      · exact .inr (List.mem_cons_of_mem _ h)
    · split at h
      · rcases List.mem_cons.1 h with h | h
        · exact .inl h
        · exact .inr h
      · rcases List.mem_cons.1 h with h | h
        · exact .inr (h ▸ List.mem_cons_self)
        · exact (ih h).imp_right (List.mem_cons_of_mem _)

theorem pairwise_place {name : String} {value : α} {es : List (String × α)}
    (h : es.Pairwise (fun a b => a.1 < b.1)) :
    (place name value es).Pairwise (fun a b => a.1 < b.1) := by
  induction es with
  | nil => simp [place]
  | cons head rest ih =>
    obtain ⟨other, held⟩ := head
    obtain ⟨hhead, hrest⟩ := List.pairwise_cons.1 h
    simp only [place]
    split
    · rename_i heq
      subst heq
      exact List.pairwise_cons.2 ⟨hhead, hrest⟩
    · split
      · rename_i hlt
        refine List.pairwise_cons.2 ⟨fun e he => ?_, h⟩
        rcases List.mem_cons.1 he with he | he
        · exact he ▸ hlt
        · exact String.lt_trans hlt (hhead e he)
      · rename_i hne hnlt
        have hgt : other < name := by
          refine Decidable.by_contra fun hc => hne ?_
          exact String.le_antisymm (String.not_lt.1 hc) (String.not_lt.1 hnlt)
        refine List.pairwise_cons.2 ⟨fun e he => ?_, ih hrest⟩
        rcases eq_or_mem_of_mem_place he with he | he
        · exact he ▸ hgt
        · exact hhead e he

theorem lookup_place (name other : String) (value : α) (es : List (String × α)) :
    lookup other (place name value es) = if other = name then some value else lookup other es := by
  induction es with
  | nil => simp [place, lookup]
  | cons head rest ih =>
    obtain ⟨held, v⟩ := head
    simp only [place]
    split
    · rename_i heq
      subst heq
      by_cases h : other = name <;> simp [lookup, h]
    · split
      · simp [lookup]
      · rename_i hne _
        by_cases h : other = held
        · simp [lookup, h, Ne.symm hne]
        · simp [lookup, h, ih]

/-! ## On maps -/

/-- The map without entries. -/
def empty : NameMap α := ⟨[], List.Pairwise.nil⟩

instance : Inhabited (NameMap α) := ⟨empty⟩

/-- The value filed under a name. -/
def find? (m : NameMap α) (name : String) : Option α :=
  lookup name m.entries

/-- Files a value under a name, over a value filed there before. -/
def insert (m : NameMap α) (name : String) (value : α) : NameMap α :=
  ⟨place name value m.entries, pairwise_place m.sorted⟩

/-- Removes the entry of a name. -/
def erase (m : NameMap α) (name : String) : NameMap α :=
  ⟨m.entries.filter (fun e => e.1 != name), m.sorted.filter _⟩

/-- The names of the map, in increasing order. -/
def keys (m : NameMap α) : List String :=
  m.entries.map (·.1)

/-- Whether the map holds nothing. -/
def isEmpty (m : NameMap α) : Bool :=
  m.entries.isEmpty

/-- Files the pairs from first to last, so the last pair of a name wins. -/
def ofList (pairs : List (String × α)) : NameMap α :=
  pairs.foldl (fun m p => m.insert p.1 p.2) empty

/-- All entries of both maps; where both have a name, the second map's value counts. -/
def override (m upper : NameMap α) : NameMap α :=
  upper.entries.foldl (fun m p => m.insert p.1 p.2) m

/-- Computes a value for each name in increasing order, up to the first failure. -/
def mapM {ε : Type} (f : String → α → Except ε β) (m : NameMap α) : Except ε (NameMap β) := do
  let pairs ← m.entries.mapM fun (name, value) => do
    let image ← f name value
    pure (name, image)
  pure (ofList pairs)

@[simp] theorem find?_empty (name : String) : (empty : NameMap α).find? name = none := rfl

@[simp] theorem find?_insert (m : NameMap α) (name other : String) (value : α) :
    (m.insert name value).find? other = if other = name then some value else m.find? other :=
  lookup_place name other value m.entries

theorem find?_erase (m : NameMap α) (name other : String) :
    (m.erase name).find? other = if other = name then none else m.find? other := by
  obtain ⟨es, hes⟩ := m
  simp only [find?, erase]
  clear hes
  induction es with
  | nil => simp [lookup]
  | cons head rest ih =>
    obtain ⟨held, v⟩ := head
    by_cases h : held = name
    · subst h
      by_cases ho : other = held <;> simp_all [lookup]
    · by_cases ho : other = held <;> simp_all [lookup]

end NameMap

end Autopilot
