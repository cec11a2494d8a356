import FlowShape.Files.Analysis
import FlowShape.Proofs.Related
import FlowShape.Proofs.Tree.Builder

/-!
# Directories

A directory is analysed file by file, in the order of paths. Each file is analysed as it is by
itself, whatever was analysed before it, and the first file that cannot be read or is refused is the
answer for the whole directory.
-/

namespace FlowShape

/-! ## The order of paths -/

namespace Path

theorem segmentsLe_trans {ss ts us : List String} (h : segmentsLe ss ts) (h' : segmentsLe ts us) :
    segmentsLe ss us := by
  fun_induction segmentsLe ss ts generalizing us with
  | case1 => simp [segmentsLe]
  | case2 => contradiction
  | case3 s ss t ts ih =>
    cases us with
    | nil => simp [segmentsLe] at h'
    | cons u us => grind [segmentsLe, String.lt_trans]

theorem segmentsLe_total (ss ts : List String) : segmentsLe ss ts || segmentsLe ts ss := by
  fun_induction segmentsLe ss ts with
  | case1 => simp
  | case2 => simp [segmentsLe]
  | case3 s ss t ts ih => grind [segmentsLe]

theorem pairwise_mergeSort (paths : List String) :
    (paths.mergeSort le).Pairwise fun p q => le p q :=
  @List.pairwise_mergeSort String le (fun _ _ _ h h' => segmentsLe_trans h h')
    (fun p q => segmentsLe_total (segments p) (segments q)) paths

end Path

theorem FileTree.pairwise_sourceFiles (root : FileTree) (path : String) (cwd : List String) :
    (root.sourceFiles path cwd).Pairwise fun p q => Path.le p q := by
  unfold sourceFiles
  split
  · split
    · exact .nil
    · exact Path.pairwise_mergeSort _
  · exact .nil

/-! ## One item after the other -/

section

variable {ε α β : Type} {f : α → Except ε β} {x : α} {xs : List α}

theorem mapM_cons_of_error {e : ε} (h : f x = .error e) : (x :: xs).mapM f = .error e := by
  rw [List.mapM_cons, h]
  rfl

theorem mapM_cons_of_ok {y : β} (h : f x = .ok y) :
    (x :: xs).mapM f = (xs.mapM f).map (y :: ·) := by
  rw [List.mapM_cons, h]
  cases xs.mapM f <;> rfl

/-- Work done item by item succeeds just if it does for each of them. -/
theorem mapM_eq_ok_iff {ys : List β} :
    xs.mapM f = .ok ys ↔ List.Forall₂ (fun x y => f x = .ok y) xs ys := by
  induction xs generalizing ys with
  | nil => simp [pure, Except.pure, eq_comm]
  | cons x xs ih =>
    cases hx : f x with
    | error e => simp [mapM_cons_of_error hx, List.forall₂_cons_left_iff, hx]
    | ok y =>
      simp only [mapM_cons_of_ok hx, List.forall₂_cons_left_iff, hx, ← ih]
      cases xs.mapM f <;> simp [Except.map, eq_comm]

/-- Work done item by item fails with the first item that fails. -/
theorem mapM_eq_error_iff {e : ε} :
    xs.mapM f = .error e ↔
      ∃ before x after, xs = before ++ x :: after ∧ (∀ b ∈ before, ∃ y, f b = .ok y) ∧
        f x = .error e := by
  induction xs with
  | nil => simp [pure, Except.pure]
  | cons x xs ih =>
    cases hx : f x with
    | error e' =>
      rw [mapM_cons_of_error hx]
      constructor
      · rintro ⟨⟩
        exact ⟨[], x, xs, rfl, by simp, hx⟩
      · rintro ⟨before, z, after, hsplit, hbefore, hz⟩
        cases before with
        | nil => simp_all
        | cons b before => simp_all
    | ok y =>
      have hmap : (xs.mapM f).map (y :: ·) = .error e ↔ xs.mapM f = .error e := by
        cases xs.mapM f <;> simp [Except.map]
      rw [mapM_cons_of_ok hx, hmap, ih]
      constructor
      · rintro ⟨before, z, after, rfl, hbefore, hz⟩
        exact ⟨x :: before, z, after, rfl, List.forall_mem_cons.2 ⟨⟨y, hx⟩, hbefore⟩, hz⟩
      · rintro ⟨before, z, after, hsplit, hbefore, hz⟩
        cases before with
        | nil => simp_all
        | cons b before =>
          obtain ⟨rfl, hrest⟩ := List.cons.inj hsplit
          exact ⟨before, z, after, hrest, (List.forall_mem_cons.1 hbefore).2, hz⟩

end

/-! ## Files of a directory -/

section

variable {options : Options} {t : Timestamp} (h : options.analyzedAt = some t)

include h

/-- With a fixed time it does not matter when a file is analysed. -/
theorem Analysis.run_anytime (now clock : Timestamp) (src : Source) (tree : Node) (used : Nat) :
    run options now src tree used = run options clock src tree used := by
  simp only [run, h, Option.getD_some]

/-- After a new start a session answers as a file by itself does. -/
theorem Session.analyze_reset {s : Session} (hs : s.options = options) (clock : Timestamp)
    (src : Source) (tree : Node) :
    (s.reset.analyze src tree).1 = Analysis.ofSource options clock src tree ∧
      (s.reset.analyze src tree).2.options = options := by
  subst hs
  simp only [analyze, reset, Analysis.ofSource, Analysis.run_anytime h s.now clock]
  cases Analysis.run s.options clock src tree 0 <;> exact ⟨rfl, rfl⟩

theorem FileTree.analyzeInSession_eq (root : FileTree) (cwd : List String)
    (clock : String → Timestamp) {s : Session} (hs : s.options = options) (paths : List String) :
    root.analyzeInSession cwd s paths =
      paths.mapM fun path => root.analyzeFile options (clock path) path cwd := by
  induction paths generalizing s with
  | nil => rfl
  | cons path rest ih =>
    rw [analyzeInSession, List.mapM_cons, analyzeFile]
    cases root.readSource path cwd with
    | error e => rfl
    | ok p =>
      obtain ⟨src, tree⟩ := p
      obtain ⟨hanswer, hoptions⟩ := Session.analyze_reset h hs (clock path) src tree
      simp only [bind, Except.bind, hanswer, ih hoptions]

theorem FileTree.analyzeDirectory_eq (root : FileTree) (now : Timestamp)
    (clock : String → Timestamp) {path : String} {cwd : List String}
    (hdirectory : root.isDirectory path cwd) :
    root.analyzeDirectory options now path cwd =
      (root.sourceFiles path cwd).mapM fun file =>
        root.analyzeFile options (clock file) file cwd := by
  rw [analyzeDirectory, if_pos hdirectory]
  exact root.analyzeInSession_eq h cwd clock rfl _

/-- The analysis in the place of a file is that of the file by itself. -/
theorem FileTree.exists_of_analyzeDirectory {root : FileTree} {now : Timestamp}
    (clock : String → Timestamp) {path file : String} {cwd : List String}
    {analyses : List Analysis} {i : Nat}
    (hok : root.analyzeDirectory options now path cwd = .ok analyses)
    (hi : (root.sourceFiles path cwd)[i]? = some file) :
    ∃ a, analyses[i]? = some a ∧ root.analyzeFile options (clock file) file cwd = .ok a := by
  have hdirectory : root.isDirectory path cwd := by
    unfold analyzeDirectory at hok
    split at hok
    · assumption
    · cases hok
  rw [root.analyzeDirectory_eq h now clock hdirectory, mapM_eq_ok_iff] at hok
  have hplace := hok.getElem? i
  rw [hi] at hplace
  generalize hanalysis : analyses[i]? = answer at hplace
  cases hplace with
  | some ha => exact ⟨_, rfl, ha⟩

end

/-- A directory is analysed as its files are, each by itself and at any time: it gives the analyses
of all files in the order of paths, or else the error of the first file that has one. So what is
said of a file is the same in each directory that holds it. The directory may be given from the top
or from any working directory. -/
theorem FileTree.directories_are_analyzed_by_file (root : FileTree) (options : Options)
    (t : Timestamp) (h : options.analyzedAt = some t) (now : Timestamp)
    (clock : String → Timestamp) (path : String) (cwd : List String)
    (hdirectory : root.isDirectory path cwd) :
    root.analyzeDirectory options now path cwd =
      (root.sourceFiles path cwd).mapM
        (fun file => root.analyzeFile options (clock file) file cwd) ∧
    ((root.sourceFiles path cwd).Pairwise fun file file' => Path.le file file') ∧
    (∀ analyses, root.analyzeDirectory options now path cwd = .ok analyses ↔
      List.Forall₂ (fun file a => root.analyzeFile options (clock file) file cwd = .ok a)
        (root.sourceFiles path cwd) analyses) ∧
    (∀ error, root.analyzeDirectory options now path cwd = .error error ↔
      ∃ before file after, root.sourceFiles path cwd = before ++ file :: after ∧
        (∀ earlier ∈ before, ∃ a, root.analyzeFile options (clock earlier) earlier cwd = .ok a) ∧
        root.analyzeFile options (clock file) file cwd = .error error) ∧
    ∀ (root' : FileTree) (path' : String) (cwd' : List String) (now' : Timestamp)
      (analyses analyses' : List Analysis),
      root.analyzeDirectory options now path cwd = .ok analyses →
      root'.analyzeDirectory options now' path' cwd' = .ok analyses' →
      ∀ (i j : Nat) (file : String), (root.sourceFiles path cwd)[i]? = some file →
        (root'.sourceFiles path' cwd')[j]? = some file →
        root'.readSource file cwd' = root.readSource file cwd → analyses'[j]? = analyses[i]? := by
  have heq := analyzeDirectory_eq h root now clock hdirectory
  refine ⟨heq, root.pairwise_sourceFiles path cwd, ?_, ?_, ?_⟩
  · intro analyses
    rw [heq, mapM_eq_ok_iff]
  · intro error
    rw [heq, mapM_eq_error_iff]
  · intro root' path' cwd' now' analyses analyses' hok hok' i j file hi hj hread
    obtain ⟨a, ha, hanswer⟩ := exists_of_analyzeDirectory h clock hok hi
    obtain ⟨a', ha', hanswer'⟩ := exists_of_analyzeDirectory h clock hok' hj
    rw [analyzeFile, hread, ← analyzeFile, hanswer] at hanswer'
    rw [ha, ha', Except.ok.inj hanswer']

namespace Sample

/-- An empty file, one that is no text, and one that no parser has read. -/
def projectFiles : List (String × FileTree) :=
  [("c.ts", .file (.ok ⟨.empty, none⟩)),
   ("b.ts", .file (.ok ⟨⟨#[255]⟩, none⟩)),
   ("a.ts", .file (.ok ⟨.empty, some (part .program 0 0 [])⟩))]

def project : FileTree := .directory [("p", .directory projectFiles)]

end Sample

theorem FileTree.sourceFiles_project :
    Sample.project.sourceFiles "/p" ["p"] = ["/p/a.ts", "/p/b.ts", "/p/c.ts"] := by
  have hfound : Sample.project.find "/p" ["p"] = .ok (.directory Sample.projectFiles) := rfl
  have hname : (Path.fileName? "/p").getD "/p" ≠ Path.packages := by decide +kernel
  have hentries : sourceFilesIn "/p" Sample.projectFiles =
      [("c.ts", ["/p/c.ts"]), ("b.ts", ["/p/b.ts"]), ("a.ts", ["/p/a.ts"])] := by
    decide +kernel
  have hfiles : sourceFilesAt "/p" (.directory Sample.projectFiles) =
      ["/p/a.ts", "/p/b.ts", "/p/c.ts"] := by
    simp [sourceFilesAt, hentries, List.mergeSort, List.MergeSort.Internal.splitInTwo]
  have hsorted : ["/p/a.ts", "/p/b.ts", "/p/c.ts"].Pairwise fun file file' =>
      Path.le file file' := by
    decide +kernel
  simp only [sourceFiles, hfound, hname, if_false, hfiles, List.mergeSort_of_pairwise hsorted]

/-- The second of three files is no text, and the third is not looked at. The directory is given
from the top; the working directory is that directory itself. -/
theorem FileTree.directories_are_analyzed_by_file_project :
    let options : Options := { analyzedAt := some ⟨0, 0, 0⟩ }
    options.analyzedAt = some ⟨0, 0, 0⟩ ∧ Sample.project.isDirectory "/p" ["p"] ∧
      Sample.project.sourceFiles "/p" ["p"] = ["/p/a.ts", "/p/b.ts", "/p/c.ts"] ∧
      Sample.project.analyzeDirectory options ⟨0, 0, 1⟩ "/p" ["p"] =
        .error (.unreadable "/p/b.ts" .notUtf8) := by
  intro options
  have hdirectory : Sample.project.isDirectory "/p" ["p"] := by decide +kernel
  have hfiles := sourceFiles_project
  obtain ⟨-, -, -, herror, -⟩ := FileTree.directories_are_analyzed_by_file Sample.project options
    ⟨0, 0, 0⟩ rfl ⟨0, 0, 1⟩ (fun _ => ⟨0, 0, 2⟩) "/p" ["p"] hdirectory
  refine ⟨rfl, hdirectory, hfiles,
    (herror _).2 ⟨["/p/a.ts"], "/p/b.ts", ["/p/c.ts"], hfiles, ?_, ?_⟩⟩
  · have hfirst : (Sample.project.analyzeFile options ⟨0, 0, 2⟩ "/p/a.ts" ["p"]).isOk := by
      decide +kernel
    cases ha : Sample.project.analyzeFile options ⟨0, 0, 2⟩ "/p/a.ts" ["p"] with
    | error e => simp [ha, Except.isOk, Except.toBool] at hfirst
    | ok a => exact List.forall_mem_singleton.2 ⟨a, ha⟩
  · rfl

end FlowShape
