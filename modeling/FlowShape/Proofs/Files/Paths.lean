import Mathlib.Data.List.Lex
import FlowShape.Files.Listing

/-!
# Paths below a directory

A path below a directory is the path of the directory with names put behind it. Each name is one
more segment, however the path of the directory is written. So paths below the same directory are
ordered as their names are.
-/

namespace FlowShape

theorem Text.split_eq_splitOn (c : Char) (cs : List Char) : split c cs = cs.splitOn c := by
  induction cs with
  | nil => rfl
  | cons d cs ih =>
    rw [split, ih, List.splitOn_cons_eq_if_modifyHead]
    by_cases hd : d = c
    · simp [hd]
    · have hne := List.splitOn_ne_nil c cs
      cases hs : cs.splitOn c with
      | nil => contradiction
      | cons piece pieces => simp [hd]

namespace Path

/-- A name that an entry of a directory can have. -/
structure IsName (name : String) : Prop where
  nonempty : name ≠ ""
  ne_dot : name ≠ "."
  ne_dots : name ≠ ".."
  no_slash : '/' ∉ name.toList
  no_null : '\x00' ∉ name.toList
  short : name.utf8ByteSize ≤ FileTree.maxNameBytes

instance (name : String) : Decidable (IsName name) :=
  decidable_of_iff (name ≠ "" ∧ name ≠ "." ∧ name ≠ ".." ∧ '/' ∉ name.toList ∧
      '\x00' ∉ name.toList ∧ name.utf8ByteSize ≤ FileTree.maxNameBytes)
    ⟨fun ⟨h1, h2, h3, h4, h5, h6⟩ => ⟨h1, h2, h3, h4, h5, h6⟩,
      fun ⟨h1, h2, h3, h4, h5, h6⟩ => ⟨h1, h2, h3, h4, h5, h6⟩⟩

/-- The path that leads from a directory through the given names. -/
def below (path : String) (names : List String) : String := names.foldl join path

variable {path name : String} {names : List String}

@[simp] theorem below_nil (path : String) : below path [] = path := rfl

@[simp] theorem below_cons (path name : String) (names : List String) :
    below path (name :: names) = below (join path name) names := rfl

/-! ## Segments -/

theorem rawSegments_of_no_slash (h : '/' ∉ name.toList) : rawSegments name = [name] := by
  simp [rawSegments, Text.split_eq_splitOn, List.splitOn_eq_singleton h]

theorem rawSegments_slash (path : String) (h : '/' ∉ name.toList) :
    rawSegments (path ++ "/" ++ name) = rawSegments path ++ [name] := by
  have htext : (path ++ "/" ++ name).toList = path.toList ++ '/' :: name.toList := by simp
  rw [rawSegments, htext, Text.split_eq_splitOn, List.splitOn_append_cons_self,
    List.splitOn_eq_singleton h, rawSegments, Text.split_eq_splitOn]
  simp

/-- A name takes the place of the empty segment that a path may end in. -/
theorem rawSegments_join (path : String) (h : '/' ∉ name.toList) :
    ∃ before, rawSegments (join path name) = before ++ [name] ∧
      (rawSegments path = before ∨ rawSegments path = before ++ [""]) := by
  by_cases hempty : path = ""
  · refine ⟨[], ?_, .inr ?_⟩
    · simpa [join, hempty] using rawSegments_of_no_slash h
    · subst hempty
      rfl
  · by_cases hslash : path.toList.getLast? = some '/'
    · obtain ⟨cs, hcs⟩ := List.getLast?_eq_some_iff.1 hslash
      have hpath : path = String.ofList cs ++ "/" ++ "" := by
        rw [← String.toList_inj]
        simpa using hcs
      refine ⟨rawSegments (String.ofList cs), ?_, .inr ?_⟩
      · have hjoin : join path name = String.ofList cs ++ "/" ++ name := by
          rw [join, if_pos (.inr hslash)]
          simp [hpath]
        rw [hjoin, rawSegments_slash _ h]
      · rw [hpath, rawSegments_slash _ (by simp)]
    · refine ⟨rawSegments path, ?_, .inl rfl⟩
      rw [join, if_neg (not_or.2 ⟨hempty, hslash⟩), rawSegments_slash _ h]

theorem segments_join (path : String) (h : IsName name) :
    segments (join path name) = segments path ++ [name] := by
  obtain ⟨before, hjoin, hpath | hpath⟩ := rawSegments_join path h.no_slash
  · simp [segments, hjoin, hpath, h.nonempty, h.ne_dot]
  · simp [segments, hjoin, hpath, h.nonempty, h.ne_dot]

theorem segments_below (path : String) (h : ∀ name ∈ names, IsName name) :
    segments (below path names) = segments path ++ names := by
  induction names generalizing path with
  | nil => simp
  | cons name names ih =>
    obtain ⟨hname, hnames⟩ := List.forall_mem_cons.1 h
    rw [below_cons, ih _ hnames, segments_join path hname, List.append_assoc]
    rfl

theorem rawSegments_below (path : String) (hne : names ≠ [])
    (h : ∀ name ∈ names, IsName name) :
    ∃ before, rawSegments (below path names) = before ++ names ∧
      (rawSegments path = before ∨ rawSegments path = before ++ [""]) := by
  induction names generalizing path with
  | nil => contradiction
  | cons name names ih =>
    obtain ⟨hname, hnames⟩ := List.forall_mem_cons.1 h
    obtain ⟨before, hjoin, hpath⟩ := rawSegments_join path hname.no_slash
    refine ⟨before, ?_, hpath⟩
    by_cases hlast : names = []
    · simpa [hlast] using hjoin
    · obtain ⟨start, hbelow, hstart | hstart⟩ := ih (join path name) hlast hnames
      · rw [below_cons, hbelow, ← hstart, hjoin, List.append_assoc]
        rfl
      · -- a path that ends in a name does not end in an empty segment
        obtain ⟨-, hsegment⟩ := List.append_inj' (hjoin.symm.trans hstart) rfl
        exact absurd (List.singleton_inj.1 hsegment) hname.nonempty

/-! ## Text -/

/-- Names put a text without null characters behind a path. -/
theorem toList_below (path : String) (h : ∀ name ∈ names, IsName name) :
    ∃ rest, (below path names).toList = path.toList ++ rest ∧ '\x00' ∉ rest := by
  induction names generalizing path with
  | nil => exact ⟨[], by simp, by simp⟩
  | cons name names ih =>
    obtain ⟨hname, hnames⟩ := List.forall_mem_cons.1 h
    obtain ⟨rest, hbelow, hrest⟩ := ih (join path name) hnames
    have hnull := hname.no_null
    rw [below_cons, hbelow, join]
    split
    · exact ⟨name.toList ++ rest, by simp, by simp [hnull, hrest]⟩
    · exact ⟨'/' :: name.toList ++ rest, by simp, by simp [hnull, hrest]⟩

/-! ## Extensions -/

theorem extension?_of_dot {stem extension : List Char} (hname : fileName? path = some name)
    (hsplit : name.toList = stem ++ '.' :: extension) (hlast : '.' ∉ extension) :
    extension? path = if stem = [] then none else some (String.ofList extension) := by
  have hpieces : Text.split '.' name.toList = stem.splitOn '.' ++ [extension] := by
    rw [Text.split_eq_splitOn, hsplit, List.splitOn_append_cons_self,
      List.splitOn_eq_singleton hlast]
  have hstem : stem.splitOn '.' = [[]] ↔ stem = [] := by
    constructor
    · intro h
      have hjoined : ['.'].intercalate (stem.splitOn '.') = stem := List.intercalate_splitOn '.'
      rw [← hjoined, h]
      rfl
    · rintro rfl
      rfl
  rw [extension?, hname]
  simp only [Option.bind_eq_bind, Option.bind_some, hpieces, List.reverse_append,
    List.reverse_singleton, List.singleton_append]
  cases hrev : (stem.splitOn '.').reverse with
  | nil => simp at hrev
  | cons first rest =>
    have hreverse : stem.splitOn '.' = rest.reverse ++ [first] := by
      simpa using congrArg List.reverse hrev
    have hempty : (rest.isEmpty && first.isEmpty) = true ↔ stem = [] := by
      rw [← hstem, hreverse, List.append_eq_singleton_iff]
      simp
    simp only [hempty]

/-- A file name has an extension just if it has a full stop that it does not start with; the
extension stands behind the last one. -/
theorem extension?_eq_some_iff {extension : String} (hname : fileName? path = some name) :
    extension? path = some extension ↔
      ∃ stem, stem ≠ "" ∧ name = stem ++ "." ++ extension ∧ '.' ∉ extension.toList := by
  by_cases hdot : '.' ∈ name.toList
  · obtain ⟨rest, start, hrev, hrest⟩ :=
      List.eq_append_cons_of_mem (List.mem_reverse.2 hdot)
    have hsplit : name.toList = start.reverse ++ '.' :: rest.reverse := by
      simpa using congrArg List.reverse hrev
    rw [extension?_of_dot hname hsplit (by simpa using hrest)]
    constructor
    · intro h
      split at h
      · cases h
      · next hstem =>
        cases h
        refine ⟨String.ofList start.reverse, by simpa using hstem, ?_, by simpa using hrest⟩
        rw [← String.toList_inj]
        simpa using hsplit
    · rintro ⟨stem, hstem, rfl, hlast⟩
      have hjoined : (stem ++ "." ++ extension).toList = stem.toList ++ '.' :: extension.toList := by
        simp
      have hother := extension?_of_dot hname hjoined hlast
      have hsame := (extension?_of_dot hname hsplit (by simpa using hrest)).symm.trans hother
      rw [hsame]
      simpa using hstem
  · have hpieces : Text.split '.' name.toList = [name.toList] := by
      rw [Text.split_eq_splitOn, List.splitOn_eq_singleton hdot]
    have hnone : extension? path = none := by
      rw [extension?, hname]
      simp [hpieces]
    rw [hnone]
    constructor
    · intro h
      cases h
    · rintro ⟨stem, -, rfl, -⟩
      simp at hdot

/-- What makes a path one of a source file. -/
theorem isSource_iff (path : String) :
    isSource path ↔
      (∃ stem extension, stem ≠ "" ∧ extension ∈ sourceExtensions ∧
        fileName? path = some (stem ++ "." ++ extension)) ∧
      ¬".d.ts".toList <:+ path.toList := by
  have hdots : ∀ extension ∈ sourceExtensions, '.' ∉ extension.toList := by decide
  have hextension : (extension? path).any (· ∈ sourceExtensions) ↔
      ∃ stem extension, stem ≠ "" ∧ extension ∈ sourceExtensions ∧
        fileName? path = some (stem ++ "." ++ extension) := by
    rw [Option.any_eq_true]
    constructor
    · rintro ⟨extension, hpath, hmem⟩
      cases hname : fileName? path with
      | none => simp [extension?, hname] at hpath
      | some name =>
        obtain ⟨stem, hstem, rfl, -⟩ := (extension?_eq_some_iff hname).1 hpath
        exact ⟨stem, extension, hstem, by simpa using hmem, rfl⟩
    · rintro ⟨stem, extension, hstem, hmem, hname⟩
      exact ⟨extension, (extension?_eq_some_iff hname).2 ⟨stem, hstem, rfl, hdots _ hmem⟩,
        by simpa using hmem⟩
  rw [isSource, Bool.and_eq_true, hextension, Bool.not_eq_true', ← Bool.not_eq_true,
    List.isSuffixOf_iff_suffix]

/-! ## Order -/

theorem segmentsLe_of_lex {ss ts : List String} (h : List.Lex (· < ·) ss ts) :
    segmentsLe ss ts := by
  induction h with
  | nil => rfl
  | cons _ ih => simp [segmentsLe, ih]
  | rel hlt => simp [segmentsLe, hlt]

end Path

end FlowShape
