/-
  Configuration files, written down section by section and read.

  Lines below each other are read one after the other (`read_lines`), and a file that is written
  as sections with distinct headings, keys and values clean, is the file with these sections
  (`read_write`). What it finds is then a matter of lists. In any file that was read all values are
  clean (`cleanValues_of_read`): no line can bring in another, by the lemma for one line, and
  filing keeps the values that are there.
-/
import Autopilot.Proofs.Ini.Lines
import Autopilot.Proofs.NameMap
import Autopilot.Proofs.Outcome

namespace Autopilot.Ini

/-! ## Lines below each other -/

/-- Lines with their ends. -/
def Line.joined (lines : List Line) : List Char :=
  lines.flatMap fun line => line.chars ++ ['\n']

theorem splitOn_joined {lines : List Line} (h : ∀ line ∈ lines, '\n' ∉ line.chars) :
    (Line.joined lines).splitOn '\n' = lines.map Line.chars ++ [[]] := by
  unfold Line.joined
  induction lines with
  | nil => rfl
  | cons line lines ih =>
    have hline := h line List.mem_cons_self
    have hrest := ih fun other hother => h other (List.mem_cons_of_mem _ hother)
    rw [List.flatMap_cons, List.append_assoc, List.singleton_append,
      List.splitOn_append_cons_self_of_not_mem hline, hrest]
    rfl

/-- Lines are taken in one after the other, as what they read as; behind the last end of a line
    there is nothing. -/
theorem addLines_chars {lines lines' : List Line} (h : List.Forall₂ Line.ReadsAs lines lines')
    (p : Progress) (number : Nat) :
    p.addLines number (lines.map Line.chars ++ [[]]) = .ok (lines'.foldl Progress.add p) := by
  induction h generalizing p number with
  | nil => rfl
  | @cons line line' lines lines' hline hrest ih =>
    rw [List.map_cons, List.cons_append, Progress.addLines, hline.2]
    exact ih (p.add line') (number + 1)

theorem read_lines {lines lines' : List Line} (h : List.Forall₂ Line.ReadsAs lines lines') :
    Ini.read (String.ofList (Line.joined lines)) =
      .ok (lines'.foldl Progress.add ⟨empty, "default"⟩).ini := by
  have hplain : ∀ line ∈ lines, '\n' ∉ line.chars := by
    intro line hmem
    obtain ⟨line', -, hreads⟩ := exists_of_mem_right h.flip hmem
    exact hreads.1
  unfold Ini.read
  rw [String.toList_ofList, splitOn_joined hplain, addLines_chars h]
  rfl

/-- Lines that can be written read as themselves. -/
theorem readsAs_of_writable {lines : List Line} (h : ∀ line ∈ lines, line.Writable) :
    List.Forall₂ Line.ReadsAs lines lines :=
  List.forall₂_same.mpr fun line hline => (h line hline).readsAs

/-! ## Sections below each other -/

/-- A section as it is written: its heading, and its keys with their values, in order. -/
structure Written where
  heading : String
  entries : List (String × String)

namespace Written

/-- The lines of a section. -/
def lines (s : Written) : List Line :=
  .heading s.heading :: s.entries.map fun e => .entry e.1 (some e.2)

/-- The keys and values of a section. -/
def content (s : Written) : IniSection :=
  NameMap.ofList (s.entries.map fun e => (e.1, some e.2))

/-- The section can be written so that it is read back. -/
structure Writable (s : Written) : Prop where
  heading : Clean s.heading
  entries : ∀ e ∈ s.entries, CleanKey e.1 ∧ Clean e.2

theorem Writable.lines {s : Written} (h : s.Writable) : ∀ line ∈ s.lines, line.Writable := by
  intro line hline
  rcases List.mem_cons.mp hline with rfl | hline
  · exact h.heading
  · obtain ⟨e, he, rfl⟩ := List.mem_map.mp hline
    exact h.entries e he

end Written

/-- The lines of sections, with an empty line in front of all but the first. -/
def linesOf : List Written → List Line
  | [] => []
  | first :: rest => first.lines ++ rest.flatMap fun s => .nothing :: s.lines

/-- Sections as a file is written. -/
def write (sections : List Written) : String :=
  String.ofList (Line.joined (linesOf sections))

/-- The file with these sections. -/
def ofSections (sections : List Written) : Ini :=
  ⟨NameMap.ofList (sections.map fun s => (s.heading, s.content))⟩

theorem writable_linesOf {sections : List Written} (h : ∀ s ∈ sections, s.Writable) :
    ∀ line ∈ linesOf sections, line.Writable := by
  cases sections with
  | nil =>
    intro line hline
    cases hline
  | cons first rest =>
    intro line hline
    rcases List.mem_append.mp hline with hline | hline
    · exact (h first List.mem_cons_self).lines line hline
    · obtain ⟨s, hs, hline⟩ := List.mem_flatMap.mp hline
      rcases List.mem_cons.mp hline with rfl | hline
      · trivial
      · exact (h s (List.mem_cons_of_mem _ hs)).lines line hline

/-- Entries of the open section are filed in it, one after the other. -/
theorem foldl_entries (base : NameMap IniSection) (heading : String) (entries : IniSection)
    (pairs : List (String × String)) :
    (pairs.map fun e => Line.entry e.1 (some e.2)).foldl Progress.add
        ⟨⟨base.insert heading entries⟩, heading⟩ =
      ⟨⟨base.insert heading (pairs.foldl (fun m e => m.insert e.1 (some e.2)) entries)⟩,
        heading⟩ := by
  induction pairs generalizing entries with
  | nil => rfl
  | cons pair pairs ih =>
    have hstep : Progress.add ⟨⟨base.insert heading entries⟩, heading⟩
        (.entry pair.1 (some pair.2)) =
          ⟨⟨base.insert heading (entries.insert pair.1 (some pair.2))⟩, heading⟩ := by
      unfold Progress.add file
      simp [NameMap.insert_insert]
    rw [List.map_cons, List.foldl_cons, hstep, ih]
    rfl

/-- A section with a new heading is filed as a whole. -/
theorem foldl_lines {base : NameMap IniSection} {s : Written} (h : base.find? s.heading = none)
    (current : String) :
    s.lines.foldl Progress.add ⟨⟨base⟩, current⟩ =
      ⟨⟨base.insert s.heading s.content⟩, s.heading⟩ := by
  have hheading : Progress.add ⟨⟨base⟩, current⟩ (.heading s.heading) =
      ⟨⟨base.insert s.heading NameMap.empty⟩, s.heading⟩ := by
    simp only [Progress.add, openSection, h]
  unfold Written.lines Written.content NameMap.ofList
  rw [List.foldl_cons, hheading, foldl_entries, List.foldl_map]

theorem foldl_sections {sections : List Written} {base : NameMap IniSection}
    (hdistinct : (sections.map (·.heading)).Nodup)
    (hnew : ∀ s ∈ sections, base.find? s.heading = none) (current : String) :
    ((sections.flatMap fun s => .nothing :: s.lines).foldl Progress.add ⟨⟨base⟩, current⟩).ini =
      ⟨(sections.map fun s => (s.heading, s.content)).foldl (fun m p => m.insert p.1 p.2)
        base⟩ := by
  induction sections generalizing base current with
  | nil => rfl
  | cons s sections ih =>
    obtain ⟨hs, hdistinct⟩ := List.nodup_cons.mp hdistinct
    have hfirst := hnew s List.mem_cons_self
    have hrest : ∀ other ∈ sections,
        (base.insert s.heading s.content).find? other.heading = none := by
      intro other hother
      have hne : other.heading ≠ s.heading := by
        intro heq
        exact hs (List.mem_map.mpr ⟨other, hother, heq⟩)
      rw [NameMap.find?_insert, if_neg hne]
      exact hnew other (List.mem_cons_of_mem _ hother)
    have hnothing : (Line.nothing :: s.lines).foldl Progress.add ⟨⟨base⟩, current⟩ =
        s.lines.foldl Progress.add ⟨⟨base⟩, current⟩ := rfl
    rw [List.flatMap_cons, List.foldl_append, hnothing, foldl_lines hfirst,
      ih hdistinct hrest]
    rfl

/-- A file that is written as sections is read as the file with these sections. -/
theorem read_write {sections : List Written} (h : ∀ s ∈ sections, s.Writable)
    (hdistinct : (sections.map (·.heading)).Nodup) :
    Ini.read (write sections) = .ok (ofSections sections) := by
  have hlines : (linesOf sections).foldl Progress.add ⟨empty, "default"⟩ =
      (sections.flatMap fun s => .nothing :: s.lines).foldl Progress.add
        ⟨⟨NameMap.empty⟩, "default"⟩ := by
    cases sections with
    | nil => rfl
    | cons first rest => rfl
  unfold write
  rw [read_lines (readsAs_of_writable (writable_linesOf h)), hlines,
    foldl_sections hdistinct (fun _ _ => rfl)]
  rfl

/-! ## What the sections say -/

section Lookups

variable {sections : List Written} (hdistinct : (sections.map (·.heading)).Nodup)

include hdistinct

theorem find?_ofSections {s : Written} (hs : s ∈ sections) :
    (ofSections sections).sections.find? s.heading = some s.content := by
  have hnames : ((sections.map fun s => (s.heading, s.content)).map (·.1)).Nodup := by
    rw [List.map_map]
    exact hdistinct
  exact (NameMap.find?_ofList_iff (NameMap.eq_of_nodup hnames)).mpr
    (List.mem_map.mpr ⟨s, hs, rfl⟩)

theorem value?_ofSections {s : Written} (hs : s ∈ sections)
    (hkeys : (s.entries.map (·.1)).Nodup) {key value : String} :
    (ofSections sections).value? s.heading key = some value ↔ (key, value) ∈ s.entries := by
  have hnames : ((s.entries.map fun e => (e.1, some e.2)).map (·.1)).Nodup := by
    rw [List.map_map]
    exact hkeys
  have hfind : s.content.find? key = some (some value) ↔
      (key, some value) ∈ s.entries.map fun e => (e.1, some e.2) :=
    NameMap.find?_ofList_iff (NameMap.eq_of_nodup hnames)
  unfold value?
  rw [find?_ofSections hdistinct hs, Option.bind_some, Option.join_eq_some_iff, hfind]
  simp

theorem valueD_ofSections {s : Written} (hs : s ∈ sections) (hkeys : (s.entries.map (·.1)).Nodup)
    {key value : String} (hentry : (key, value) ∈ s.entries) :
    (ofSections sections).valueD s.heading key = value := by
  unfold valueD
  rw [(value?_ofSections hdistinct hs hkeys).mpr hentry]
  rfl

theorem headings_perm_ofSections :
    (ofSections sections).headings.Perm (sections.map (·.heading)) := by
  have hnames : (sections.map fun s => (s.heading, s.content)).map (·.1) =
      sections.map (·.heading) := List.map_map
  have hperm := NameMap.keys_perm_ofList (hnames.symm ▸ hdistinct)
  rwa [hnames] at hperm

end Lookups

/-! ## Values of any file -/

/-- All values of the file are clean. -/
def CleanValues (ini : Ini) : Prop :=
  ∀ heading key value, ini.value? heading key = some value → Clean value

theorem CleanValues.valueD {ini : Ini} (h : CleanValues ini) (heading key : String) :
    Clean (ini.valueD heading key) := by
  unfold Ini.valueD
  cases hvalue : ini.value? heading key with
  | none => exact clean_empty
  | some value => exact h heading key value hvalue

theorem value?_openSection (ini : Ini) (opened heading key : String) :
    (openSection ini opened).value? heading key = ini.value? heading key := by
  unfold openSection
  cases hfind : ini.sections.find? opened with
  | some entries => rfl
  | none =>
    unfold value?
    rw [NameMap.find?_insert]
    by_cases hsame : heading = opened
    · simp [hsame, hfind]
    · rw [if_neg hsame]

theorem value?_file (ini : Ini) (filed heading key name : String) (value : Option String) :
    (file ini filed name value).value? heading key =
      if heading = filed ∧ key = name then value else ini.value? heading key := by
  unfold file value?
  dsimp only
  rw [NameMap.find?_insert]
  by_cases hsame : heading = filed
  · rw [if_pos hsame, Option.bind_some, NameMap.find?_insert]
    by_cases hkey : key = name
    · simp [hsame, hkey]
    · rw [if_neg hkey, if_neg (fun h => hkey h.2), hsame]
      cases ini.sections.find? filed with
      | none => rfl
      | some entries => rfl
  · rw [if_neg hsame, if_neg (fun h => hsame h.1)]

/-- Taking in a line keeps the values clean if the line has none or a clean one. -/
theorem CleanValues.add {p : Progress} (h : CleanValues p.ini) {line : Line}
    (hline : ∀ key value, line = .entry key (some value) → Clean value) :
    CleanValues (p.add line).ini := by
  intro heading key value hvalue
  cases line with
  | nothing => exact h heading key value hvalue
  | heading name =>
    have hopened : (openSection p.ini name).value? heading key = some value := hvalue
    rw [value?_openSection] at hopened
    exact h heading key value hopened
  | entry name value? =>
    have hfiled : (file p.ini p.heading name value?).value? heading key = some value := hvalue
    rw [value?_file] at hfiled
    by_cases hsame : heading = p.heading ∧ key = name
    · rw [if_pos hsame] at hfiled
      exact hline name value (by rw [hfiled])
    · rw [if_neg hsame] at hfiled
      exact h heading key value hfiled

theorem CleanValues.addLines {lines : List (List Char)} (hlines : ∀ line ∈ lines, '\n' ∉ line)
    {p q : Progress} (h : CleanValues p.ini) {number : Nat}
    (hread : p.addLines number lines = .ok q) : CleanValues q.ini := by
  induction lines generalizing p number with
  | nil =>
    cases hread
    exact h
  | cons line rest ih =>
    unfold Progress.addLines at hread
    cases hline : Line.read number line with
    | error defect =>
      rw [hline] at hread
      cases hread
    | ok said =>
      rw [hline] at hread
      have hclean : ∀ key value, said = .entry key (some value) → Clean value := by
        rintro key value rfl
        exact clean_of_read hline (hlines line List.mem_cons_self)
      exact ih (fun other hother => hlines other (List.mem_cons_of_mem _ hother))
        (h.add hclean) hread

theorem cleanValues_of_read {s : String} {ini : Ini} (h : Ini.read s = .ok ini) :
    CleanValues ini := by
  obtain ⟨p, hlines, rfl⟩ := map_eq_ok.mp h
  have hempty : CleanValues empty := by
    intro heading key value hvalue
    cases hvalue
  exact hempty.addLines (fun line hline => (Text.mem_of_mem_splitOn hline).1) hlines

end Autopilot.Ini
