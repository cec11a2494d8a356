import FlowShape.Proofs.Files.Paths

/-!
# Walks through a directory

A walk visits a directory before its entries and the entries by their names, each with all that is
below it, and does not enter installed packages. Its order is that of paths by segments. The source
files of a directory are the files of the walk that have the name of a source file.
-/

namespace FlowShape

namespace FileTree

/-- A tree of files as a file system holds it: the entries of a directory have proper names, and no
two of them the same one. -/
inductive WellFormed : FileTree → Prop
  | file (reading : Except ReadFailure File) : WellFormed (file reading)
  | special (reading : Except ReadFailure File) : WellFormed (special reading)
  | directory {entries : List (String × FileTree)} : (entries.map (·.1)).Nodup →
      (∀ e ∈ entries, Path.IsName e.1) → (∀ e ∈ entries, WellFormed e.2) →
      WellFormed (directory entries)

/-! ## Following names -/

variable {t u : FileTree} {names : List String}

/-- Names that do not lead back up lead from where a path ends, wherever that is. -/
theorem follow_append (above : List FileTree) (t : FileTree) (segments : List String)
    (h : ∀ name ∈ names, name ≠ "..") :
    follow above t (segments ++ names) = (follow above t segments).bind (follow [] · names) := by
  have hanywhere (above : List FileTree) (t : FileTree) :
      follow above t names = follow [] t names := by
    induction names generalizing above t with
    | nil => simp [follow]
    | cons name names ih =>
      obtain ⟨hname, hnames⟩ := List.forall_mem_cons.1 h
      cases t with
      | file | special => simp [follow]
      | directory entries =>
        simp only [follow, hname, if_false]
        split
        · exact (ih hnames above _).trans (ih hnames [] _).symm
        · split
          · rfl
          · split
            · exact (ih hnames _ _).trans (ih hnames _ _).symm
            · rfl
  induction segments generalizing above t with
  | nil => simpa [follow, Except.bind] using hanywhere above t
  | cons segment segments ih =>
    cases t with
    | file | special => simp [follow, Except.bind]
    | directory entries =>
      simp only [List.cons_append, follow]
      split
      · exact ih _ _
      · split
        · split
          · exact ih _ _
          · exact ih _ _
        · split
          · rfl
          · split
            · exact ih _ _
            · rfl

theorem lookup_eq_some_iff {entries : List (String × FileTree)} (h : (entries.map (·.1)).Nodup)
    {name : String} {e : FileTree} : entries.lookup name = some e ↔ (name, e) ∈ entries := by
  induction entries with
  | nil => simp
  | cons entry entries ih =>
    obtain ⟨hnew, hrest⟩ := List.nodup_cons.1 h
    grind

/-- A name leads to the entry that has it. -/
theorem follow_directory {entries : List (String × FileTree)} (h : (entries.map (·.1)).Nodup)
    {name : String} (hname : Path.IsName name) (hnames : ∀ name ∈ names, Path.IsName name) :
    follow [] (directory entries) (name :: names) = .ok u ↔
      ∃ e, (name, e) ∈ entries ∧ follow [] e names = .ok u := by
  have hshort : ¬maxNameBytes < name.utf8ByteSize := Nat.not_lt.2 hname.short
  simp only [follow, hname.nonempty, hname.ne_dot, hname.ne_dots, hshort, or_self, if_false,
    ← lookup_eq_some_iff h]
  cases entries.lookup name with
  | none => simp
  | some e =>
    have hanywhere := follow_append [directory entries] e [] fun name hmem =>
      (hnames name hmem).ne_dots
    simp only [List.nil_append, follow, Except.bind] at hanywhere
    simp [hanywhere]

theorem find_eq_ok_iff {root : FileTree} {path : String} {cwd : List String} :
    root.find path cwd = .ok t ↔ '\x00' ∉ path.toList ∧ path.utf8ByteSize ≤ maxPathBytes ∧
      path ≠ "" ∧ follow [] root (route cwd path) = .ok t := by
  unfold find
  split
  · next h => simp_all
  · next hnull =>
    split
    · next hlong => simp [Nat.not_le.2 hlong]
    · next hlong =>
      split
      · next hempty => simp [hempty]
      · next hempty => simp_all [Nat.not_lt.1 hlong]

/-- An empty segment at the end of a path adds nothing. -/
theorem follow_of_append_empty {above : List FileTree} {o : FileTree} {segments : List String}
    (h : follow above o (segments ++ [""]) = .ok t) : follow above o segments = .ok t := by
  rw [follow_append above o segments (by simp)] at h
  cases hv : follow above o segments with
  | error e => simp [hv, Except.bind] at h
  | ok v => cases v <;> simp_all [follow, Except.bind]

/-- What a path below a directory leads to is told by its names, unless the path is too long. The
path starts where that of the directory does, at the top or in the working directory. -/
theorem find_below {root : FileTree} {path : String} {cwd : List String}
    (hfound : root.find path cwd = .ok t) (h : ∀ name ∈ names, Path.IsName name) :
    root.find (Path.below path names) cwd = .ok u ↔
      (Path.below path names).utf8ByteSize ≤ maxPathBytes ∧ follow [] t names = .ok u := by
  obtain ⟨hnull, hshort, hne, hfollow⟩ := find_eq_ok_iff.1 hfound
  obtain ⟨rest, htext, hrest⟩ := Path.toList_below path h
  have hnull' : '\x00' ∉ (Path.below path names).toList := by simp [htext, hnull, hrest]
  have hchars : path.toList ≠ [] := by simpa using hne
  have hne' : Path.below path names ≠ "" := by
    rw [← String.toList_inj.ne, htext]
    simp [hchars]
  have hstart : (Path.below path names).toList.head? = path.toList.head? := by
    rw [htext, List.head?_append_of_ne_nil _ hchars]
  have hsegments : follow [] root (route cwd (Path.below path names)) = follow [] t names := by
    by_cases hnames : names = []
    · simp [hnames, hfollow, follow]
    · obtain ⟨before, hbelow, hpath⟩ := Path.rawSegments_below path hnames h
      rw [route, hstart, hbelow, ← List.append_assoc,
        follow_append _ _ _ fun name hmem => (h name hmem).ne_dots]
      rw [route] at hfollow
      generalize (if path.toList.head? = some '/' then [] else cwd) = start at hfollow ⊢
      have hbefore : follow [] root (start ++ before) = .ok t := by
        rcases hpath with hpath | hpath
        · rwa [hpath] at hfollow
        · rw [hpath, ← List.append_assoc] at hfollow
          exact follow_of_append_empty hfollow
      rw [hbefore]
      rfl
  rw [find_eq_ok_iff, hsegments]
  simp [hnull', hne']

/-! ## Walking -/

/-- The entries of a directory that are visited, in the order of their names. -/
def visited (entries : List (String × FileTree)) : List (String × FileTree) :=
  (entries.filter (·.1 ≠ Path.packages)).mergeSort (·.1 ≤ ·.1)

mutual

/-- What is at or below a path, with the path of each. -/
def walk (path : String) : FileTree → List (String × FileTree)
  | file reading => [(path, file reading)]
  | special reading => [(path, special reading)]
  | directory entries =>
    (path, directory entries) ::
      ((walkEntries path entries).mergeSort (·.1 ≤ ·.1)).flatMap (·.2)

def walkEntries (path : String) :
    List (String × FileTree) → List (String × List (String × FileTree))
  | [] => []
  | (name, entry) :: rest =>
    if name = Path.packages then walkEntries path rest
    else (name, walk (Path.join path name) entry) :: walkEntries path rest

end

/-- What is made of each entry may be sorted by name before or after it is made. -/
theorem mergeSort_visited {β : Type} (entries : List (String × FileTree))
    (f : String × FileTree → List β) :
    (((entries.filter (·.1 ≠ Path.packages)).map fun e => (e.1, f e)).mergeSort
      (·.1 ≤ ·.1)).flatMap (·.2) = (visited entries).flatMap f := by
  rw [visited, ← List.map_mergeSort (r := fun e e' => e.1 ≤ e'.1) (by simp), List.flatMap_map]

theorem walk_file (path : String) (reading : Except ReadFailure File) :
    walk path (file reading) = [(path, file reading)] := by
  rw [walk]

theorem walk_special (path : String) (reading : Except ReadFailure File) :
    walk path (special reading) = [(path, special reading)] := by
  rw [walk]

theorem walk_directory (path : String) (entries : List (String × FileTree)) :
    walk path (directory entries) = (path, directory entries) ::
      (visited entries).flatMap fun e => walk (Path.join path e.1) e.2 := by
  have hentries : walkEntries path entries =
      (entries.filter (·.1 ≠ Path.packages)).map fun e =>
        (e.1, walk (Path.join path e.1) e.2) := by
    induction entries with
    | nil => rw [walkEntries]; rfl
    | cons e entries ih =>
      rw [walkEntries]
      split <;> simp_all
  rw [walk, hentries, mergeSort_visited]

theorem sourceFilesAt_directory (path : String) (entries : List (String × FileTree)) :
    sourceFilesAt path (directory entries) =
      (visited entries).flatMap fun e => sourceFilesAt (Path.join path e.1) e.2 := by
  have hentries : sourceFilesIn path entries =
      (entries.filter (·.1 ≠ Path.packages)).map fun e =>
        (e.1, sourceFilesAt (Path.join path e.1) e.2) := by
    induction entries with
    | nil => rw [sourceFilesIn]; rfl
    | cons e entries ih =>
      rw [sourceFilesIn]
      split <;> simp_all
  rw [sourceFilesAt, hentries, mergeSort_visited]

theorem mem_visited {entries : List (String × FileTree)} {e : String × FileTree} :
    e ∈ visited entries ↔ e ∈ entries ∧ e.1 ≠ Path.packages := by
  simp [visited]

theorem pairwise_visited {entries : List (String × FileTree)} (h : (entries.map (·.1)).Nodup) :
    (visited entries).Pairwise (·.1 < ·.1) := by
  have hsorted : (visited entries).Pairwise fun e e' => e.1 ≤ e'.1 := by
    have hpairwise := @List.pairwise_mergeSort (String × FileTree) (·.1 ≤ ·.1)
      (fun _ _ _ h h' => by simpa using String.le_trans (by simpa using h) (by simpa using h'))
      (fun e e' => by simpa using String.le_total e.1 e'.1)
      (entries.filter (·.1 ≠ Path.packages))
    simpa [visited] using hpairwise
  have hdistinct : (visited entries).Pairwise fun e e' => e.1 ≠ e'.1 := by
    have hnodup : (entries.filter (·.1 ≠ Path.packages)).Pairwise fun e e' => e.1 ≠ e'.1 :=
      (List.pairwise_map.1 h).sublist List.filter_sublist
    exact (List.mergeSort_perm _ _).symm.pairwise hnodup fun h => h.symm
  refine hsorted.imp₂ (fun e e' hle hne => ?_) hdistinct
  exact String.not_le.1 fun hge => hne (String.le_antisymm hle hge)

/-- A walk meets what names lead to that are not those of installed packages. -/
theorem mem_walk_iff (h : t.WellFormed) {path p : String} :
    (p, u) ∈ walk path t ↔ ∃ names, (∀ name ∈ names, Path.IsName name ∧ name ≠ Path.packages) ∧
      p = Path.below path names ∧ follow [] t names = .ok u := by
  induction h generalizing path with
  | file | special =>
    rw [walk, List.mem_singleton, Prod.mk.injEq]
    constructor
    · rintro ⟨rfl, rfl⟩
      exact ⟨[], by simp, rfl, rfl⟩
    · rintro ⟨names, -, rfl, hfollow⟩
      cases names with
      | nil => simpa [follow, eq_comm] using hfollow
      | cons name names => simp [follow] at hfollow
  | @directory entries hdistinct hproper _ ih =>
    rw [walk_directory, List.mem_cons, Prod.mk.injEq, List.mem_flatMap]
    constructor
    · rintro (⟨rfl, rfl⟩ | ⟨⟨name, e⟩, hvisited, hwalk⟩)
      · exact ⟨[], by simp, rfl, rfl⟩
      · obtain ⟨hentry, hname⟩ := mem_visited.1 hvisited
        obtain ⟨names, hnames, rfl, hfollow⟩ := (ih _ hentry).1 hwalk
        refine ⟨name :: names, List.forall_mem_cons.2 ⟨⟨hproper _ hentry, hname⟩, hnames⟩, rfl, ?_⟩
        have hproper' : ∀ n ∈ names, Path.IsName n := fun n hn => (hnames n hn).1
        exact (follow_directory hdistinct (hproper _ hentry) hproper').2 ⟨e, hentry, hfollow⟩
    · rintro ⟨names, hnames, rfl, hfollow⟩
      cases names with
      | nil => exact .inl ⟨rfl, by simpa [follow, eq_comm] using hfollow⟩
      | cons name names =>
        obtain ⟨⟨hname, hpackages⟩, hrest⟩ := List.forall_mem_cons.1 hnames
        obtain ⟨e, hentry, hfollow⟩ :=
          (follow_directory hdistinct hname fun name hmem => (hrest name hmem).1).1 hfollow
        exact .inr ⟨(name, e), mem_visited.2 ⟨hentry, hpackages⟩,
          (ih _ hentry).2 ⟨names, hrest, rfl, hfollow⟩⟩

/-- The segments of what a walk meets start with those of where it starts. -/
theorem segments_of_mem_walk (h : t.WellFormed) {path p : String} (hmem : (p, u) ∈ walk path t) :
    ∃ names, Path.segments p = Path.segments path ++ names := by
  obtain ⟨names, hnames, rfl, -⟩ := (mem_walk_iff h).1 hmem
  exact ⟨names, Path.segments_below path fun name hmem => (hnames name hmem).1⟩

/-- A walk goes through paths in the order of their segments. -/
theorem pairwise_walk (h : t.WellFormed) (path : String) :
    (walk path t).Pairwise fun e e' =>
      List.Lex (· < ·) (Path.segments e.1) (Path.segments e'.1) := by
  induction h generalizing path with
  | file | special =>
    rw [walk]
    exact List.pairwise_singleton _ _
  | @directory entries hdistinct hproper hbelow ih =>
    have hsegments {e : String × FileTree} (he : e ∈ visited entries) {q : String × FileTree}
        (hq : q ∈ walk (Path.join path e.1) e.2) :
        ∃ names, Path.segments q.1 = Path.segments path ++ e.1 :: names := by
      have hentry := (mem_visited.1 he).1
      obtain ⟨names, hnames⟩ := segments_of_mem_walk (hbelow e hentry) hq
      exact ⟨names, by rw [hnames, Path.segments_join path (hproper e hentry)]; simp⟩
    rw [walk_directory, List.pairwise_cons, List.pairwise_flatMap]
    refine ⟨fun q hq => ?_, fun e he => ih e (mem_visited.1 he).1 _, ?_⟩
    · obtain ⟨e, he, hq⟩ := List.mem_flatMap.1 hq
      obtain ⟨names, hnames⟩ := hsegments he hq
      rw [hnames]
      simpa using List.Lex.append_left (· < ·) (List.Lex.nil (a := e.1) (l := names)) _
    · refine (pairwise_visited hdistinct).imp_of_mem fun he he' hlt q hq q' hq' => ?_
      obtain ⟨names, hnames⟩ := hsegments he hq
      obtain ⟨names', hnames'⟩ := hsegments he' hq'
      rw [hnames, hnames']
      exact List.Lex.append_left _ (.rel hlt) _

/-! ## Source files -/

/-- A regular file, as opposed to a directory or a special file. -/
def isRegular : FileTree → Bool
  | file _ => true
  | special _ | directory _ => false

/-- Whether a path leads to a regular file. -/
def isFile (root : FileTree) (path : String) (cwd : List String := []) : Bool :=
  match root.find path cwd with
  | .ok t => t.isRegular
  | .error _ => false

/-- The source files at or below a path are met by the walk in the same order. -/
theorem sourceFilesAt_eq (h : t.WellFormed) (path : String) :
    sourceFilesAt path t = ((walk path t).filter fun e =>
      e.2.isRegular && (Path.isSource e.1 && e.1.utf8ByteSize ≤ maxPathBytes)).map (·.1) := by
  induction h generalizing path with
  | file =>
    rw [sourceFilesAt, walk_file]
    split <;> simp_all [isRegular]
  | special =>
    rw [sourceFilesAt, walk_special]
    simp [isRegular]
  | @directory entries _ _ _ ih =>
    rw [sourceFilesAt_directory, walk_directory, List.filter_cons_of_neg (by simp [isRegular]),
      List.filter_flatMap, List.map_flatMap]
    exact List.flatMap_congr fun e he => ih e (mem_visited.1 he).1 _

theorem follow_wellFormed {above : List FileTree} {segments : List String} (h : t.WellFormed)
    (habove : ∀ a ∈ above, a.WellFormed) (hfollow : follow above t segments = .ok u) :
    u.WellFormed := by
  fun_induction follow above t segments with
  | case1 above t =>
    cases hfollow
    exact h
  | case2 | case3 | case7 | case9 => cases hfollow
  | case4 above segment rest entries hblank ih => exact ih h habove hfollow
  | case5 rest entries parent above _ ih =>
    obtain ⟨hparent, hrest⟩ := List.forall_mem_cons.1 habove
    exact ih hparent hrest hfollow
  | case6 rest entries _ ih => exact ih h habove hfollow
  | case8 above segment rest entries _ _ _ entry hentry ih =>
    cases h with
    | directory hdistinct hproper hbelow =>
      have hmem := (lookup_eq_some_iff hdistinct).1 hentry
      exact ih (hbelow _ hmem)
        (List.forall_mem_cons.2 ⟨.directory hdistinct hproper hbelow, habove⟩) hfollow

theorem find_wellFormed {root : FileTree} (h : root.WellFormed) {path : String} {cwd : List String}
    (hfound : root.find path cwd = .ok t) : t.WellFormed := by
  obtain ⟨-, -, -, hfollow⟩ := find_eq_ok_iff.1 hfound
  exact follow_wellFormed h (by simp) hfollow

theorem isFile_iff {root : FileTree} {path : String} {cwd : List String} :
    root.isFile path cwd ↔ ∃ u, root.find path cwd = .ok u ∧ u.isRegular := by
  unfold isFile
  split <;> simp_all

/-- The last segment of a path names installed packages just if its file name does. -/
theorem getD_fileName?_eq_packages {path : String} :
    (Path.fileName? path).getD path = Path.packages ↔
      Path.fileName? path = some Path.packages := by
  cases hname : Path.fileName? path with
  | some name => simp
  | none =>
    have hpackages : Path.fileName? Path.packages = some Path.packages := by decide +kernel
    simp only [Option.getD_none, reduceCtorEq, iff_false]
    rintro rfl
    simp [hname] at hpackages

theorem sourceFiles_of_packages {root : FileTree} {path : String} {cwd : List String}
    (h : Path.fileName? path = some Path.packages) : root.sourceFiles path cwd = [] := by
  unfold sourceFiles
  split
  · rw [if_pos (getD_fileName?_eq_packages.2 h)]
  · rfl

/-- The walk goes in the order of paths already, so sorting what it meets changes nothing. -/
theorem sourceFiles_eq_sourceFilesAt {root : FileTree} {path : String} {cwd : List String}
    (h : t.WellFormed) (hfound : root.find path cwd = .ok t)
    (hname : Path.fileName? path ≠ some Path.packages) :
    root.sourceFiles path cwd = sourceFilesAt path t := by
  have hsorted : (sourceFilesAt path t).Pairwise fun p q => Path.le p q := by
    rw [sourceFilesAt_eq h, List.pairwise_map]
    exact ((pairwise_walk h path).filter _).imp fun hlt => Path.segmentsLe_of_lex hlt
  simp only [sourceFiles, hfound, getD_fileName?_eq_packages, hname, if_false]
  exact List.mergeSort_of_pairwise hsorted

/-- What names lead to is a file for the file system just if it is one in the tree and its path is
not too long. -/
theorem isFile_below_iff {root : FileTree} {path : String} {cwd : List String}
    (hfound : root.find path cwd = .ok t) (h : ∀ name ∈ names, Path.IsName name) :
    root.isFile (Path.below path names) cwd ↔
      (∃ u, follow [] t names = .ok u ∧ u.isRegular) ∧
        (Path.below path names).utf8ByteSize ≤ maxPathBytes := by
  rw [isFile_iff]
  simp only [find_below hfound h]
  grind

theorem mem_sourceFilesAt_iff {root : FileTree} {path p : String} {cwd : List String}
    (h : t.WellFormed) (hfound : root.find path cwd = .ok t) :
    p ∈ sourceFilesAt path t ↔
      ∃ names, (∀ name ∈ names, Path.IsName name ∧ name ≠ Path.packages) ∧
        p = Path.below path names ∧ root.isFile p cwd ∧ Path.isSource p := by
  rw [sourceFilesAt_eq h, List.mem_map]
  constructor
  · rintro ⟨⟨p, u⟩, hmem, rfl⟩
    obtain ⟨hwalk, hkept⟩ := List.mem_filter.1 hmem
    obtain ⟨names, hnames, rfl, hfollow⟩ := (mem_walk_iff h).1 hwalk
    simp only [Bool.and_eq_true, decide_eq_true_eq] at hkept
    obtain ⟨hfile, hsource, hshort⟩ := hkept
    refine ⟨names, hnames, rfl, ?_, hsource⟩
    exact (isFile_below_iff hfound fun name hname => (hnames name hname).1).2
      ⟨⟨u, hfollow, hfile⟩, hshort⟩
  · rintro ⟨names, hnames, rfl, hisFile, hsource⟩
    obtain ⟨⟨u, hfollow, hfile⟩, hshort⟩ :=
      (isFile_below_iff hfound fun name hname => (hnames name hname).1).1 hisFile
    refine ⟨(_, u), List.mem_filter.2 ⟨(mem_walk_iff h).2 ⟨names, hnames, rfl, hfollow⟩, ?_⟩, rfl⟩
    simp [hfile, hsource, hshort]

/-- The walk with the file system asked what is a file. -/
theorem sourceFilesAt_eq_filter_walk {root : FileTree} {path : String} {cwd : List String}
    (h : t.WellFormed) (hfound : root.find path cwd = .ok t) :
    sourceFilesAt path t =
      ((walk path t).filter fun e => root.isFile e.1 cwd && Path.isSource e.1).map (·.1) := by
  rw [sourceFilesAt_eq h]
  refine congrArg (List.map Prod.fst) (List.filter_congr fun e he => ?_)
  obtain ⟨names, hnames, hpath, hfollow⟩ := (mem_walk_iff h).1 he
  have hisFile := isFile_below_iff hfound fun name hname => (hnames name hname).1
  rw [← hpath, hfollow] at hisFile
  rw [Bool.eq_iff_iff]
  simp only [Bool.and_eq_true, hisFile, decide_eq_true_eq]
  grind

/-- The source files of a directory are listed in the order of their segments, each once: all
regular files at or below it that have the name of a source file, without declarations and without
what belongs to installed packages. That is the order in which a walk meets them. The directory may
be given from the top or from any working directory. -/
theorem source_files_are_listed_in_order (root : FileTree) (h : root.WellFormed)
    (cwd : List String) (dir : String) (t : FileTree) (hfound : root.find dir cwd = .ok t) :
    ((root.sourceFiles dir cwd).Pairwise fun p q =>
      List.Lex (· < ·) (Path.segments p) (Path.segments q)) ∧
    (root.sourceFiles dir cwd).Nodup ∧
    (∀ p, p ∈ root.sourceFiles dir cwd ↔
      ∃ names, (∀ name ∈ names, Path.IsName name) ∧ p = Path.below dir names ∧
        root.isFile p cwd ∧ Path.packages ∉ (Path.fileName? dir).toList ++ names ∧
        (∃ stem extension, stem ≠ "" ∧ extension ∈ Path.sourceExtensions ∧
          Path.fileName? p = some (stem ++ "." ++ extension)) ∧
        ¬".d.ts".toList <:+ p.toList) ∧
    (Path.fileName? dir ≠ some Path.packages →
      root.sourceFiles dir cwd =
        ((walk dir t).filter fun e => root.isFile e.1 cwd && Path.isSource e.1).map (·.1)) := by
  have ht := find_wellFormed h hfound
  have hordered : (root.sourceFiles dir cwd).Pairwise fun p q =>
      List.Lex (· < ·) (Path.segments p) (Path.segments q) := by
    by_cases hname : Path.fileName? dir = some Path.packages
    · rw [sourceFiles_of_packages hname]
      exact .nil
    · rw [sourceFiles_eq_sourceFilesAt ht hfound hname, sourceFilesAt_eq ht, List.pairwise_map]
      exact (pairwise_walk ht dir).filter _
  refine ⟨hordered, hordered.imp fun hlt heq => ?_, fun p => ?_, fun hname => ?_⟩
  · subst heq
    exact List.lex_irrefl String.lt_irrefl _ hlt
  · by_cases hname : Path.fileName? dir = some Path.packages
    · rw [sourceFiles_of_packages hname]
      simp [hname]
    · rw [sourceFiles_eq_sourceFilesAt ht hfound hname, mem_sourceFilesAt_iff ht hfound]
      refine exists_congr fun names => ?_
      rw [Path.isSource_iff, forall₂_and]
      grind
  · rw [sourceFiles_eq_sourceFilesAt ht hfound hname, sourceFilesAt_eq_filter_walk ht hfound]

end FileTree

namespace Sample

def emptyFile : FileTree := .file (.ok ⟨.empty, none⟩)

/-- Declarations, installed packages, a socket with the name of a source file, and a file beside a
directory that has its name. -/
def flowFiles : List (String × FileTree) :=
  [("t.d.ts", emptyFile),
   ("node_modules", .directory [("y.ts", emptyFile)]),
   ("s.ts", .special (.error (.other "No such device or address (os error 6)"))),
   ("a.ts", emptyFile),
   ("a", .directory [("x.ts", emptyFile)])]

def flows : FileTree :=
  .directory [("w", .directory [("p", .directory flowFiles), ("q", .directory [])])]

end Sample

namespace FileTree

/-- The directory `a` comes before the file `a.ts`, and what is in it comes with it. The directory
is given from the top, so it does not matter where the working directory is; from there it could be
given as well. -/
theorem source_files_are_listed_in_order_flows :
    Sample.flows.WellFormed ∧
      Sample.flows.find "/w/p/." ["w", "q"] = .ok (.directory Sample.flowFiles) ∧
      Sample.flows.find "../p" ["w", "q"] = .ok (.directory Sample.flowFiles) ∧
      Sample.flows.isFile "/w/p/s.ts" = false ∧
      Sample.flows.sourceFiles "/w/p/." ["w", "q"] = ["/w/p/./a/x.ts", "/w/p/./a.ts"] := by
  have hwellFormed : Sample.flows.WellFormed := by
    refine .directory (by decide) (by decide +kernel) (List.forall_mem_singleton.2 ?_)
    refine .directory (by decide) (by decide +kernel) ?_
    simp only [List.forall_mem_cons, List.not_mem_nil, false_implies, implies_true, and_true]
    refine ⟨.directory (by decide) (by decide +kernel) ?_,
      .directory (by decide) (by decide) (by simp)⟩
    simp only [Sample.flowFiles, List.forall_mem_cons, List.not_mem_nil, false_implies,
      implies_true, and_true]
    refine ⟨.file _, .directory (by decide) (by decide +kernel) ?_, .special _, .file _,
      .directory (by decide) (by decide +kernel) ?_⟩
    · exact List.forall_mem_singleton.2 (.file _)
    · exact List.forall_mem_singleton.2 (.file _)
  have hfound : Sample.flows.find "/w/p/." ["w", "q"] = .ok (.directory Sample.flowFiles) := rfl
  obtain ⟨-, -, -, hwalk⟩ :=
    source_files_are_listed_in_order Sample.flows hwellFormed ["w", "q"] "/w/p/." _ hfound
  refine ⟨hwellFormed, hfound, rfl, rfl, ?_⟩
  have hvisited : visited Sample.flowFiles =
      [("a", .directory [("x.ts", Sample.emptyFile)]), ("a.ts", Sample.emptyFile),
        ("s.ts", .special (.error (.other "No such device or address (os error 6)"))),
        ("t.d.ts", Sample.emptyFile)] := by
    simp [visited, Sample.flowFiles, Path.packages, List.mergeSort,
      List.MergeSort.Internal.splitInTwo]
  have hinner : visited [("x.ts", Sample.emptyFile)] = [("x.ts", Sample.emptyFile)] := by
    simp [visited, Path.packages]
  obtain ⟨hjoined, hkept⟩ :
      ["a", "a.ts", "s.ts", "t.d.ts"].map (Path.join "/w/p/.") =
        ["/w/p/./a", "/w/p/./a.ts", "/w/p/./s.ts", "/w/p/./t.d.ts"] ∧
        (["/w/p/.", "/w/p/./a", Path.join "/w/p/./a" "x.ts", "/w/p/./a.ts", "/w/p/./s.ts",
          "/w/p/./t.d.ts"].filter fun p =>
          Sample.flows.isFile p ["w", "q"] && Path.isSource p) =
          ["/w/p/./a/x.ts", "/w/p/./a.ts"] := by
    decide +kernel
  simp only [List.map_cons, List.map_nil, List.cons.injEq, and_true] at hjoined
  obtain ⟨ha, hb, hs, hc⟩ := hjoined
  have hpaths : (walk "/w/p/." (.directory Sample.flowFiles)).map (·.1) =
      ["/w/p/.", "/w/p/./a", Path.join "/w/p/./a" "x.ts", "/w/p/./a.ts", "/w/p/./s.ts",
        "/w/p/./t.d.ts"] := by
    have hfile (path : String) : walk path Sample.emptyFile = [(path, Sample.emptyFile)] :=
      walk_file path _
    simp [walk_directory, walk_special, hfile, hvisited, hinner, ha, hb, hs, hc]
  rw [hwalk (by decide +kernel), ← hkept, ← hpaths, List.filter_map]
  rfl

end FileTree

end FlowShape
