import BuildSteps.Proofs.Exclusion
import BuildSteps.Proofs.MarkerScanner
import BuildSteps.Tool.Basic

/-!
# Classification

Files that are left out are gone before anything else is asked. Of those that remain each is kept
once, then the extension decides, and for meta-object steps the content. Nothing but the patterns
can make classification fail.
-/

namespace BuildSteps

/-! ## 1. Tests on files -/

namespace Path

theorem extension?_eq_of_sameAs {p q : Path} (h : p.sameAs q = true) :
    p.extension? = q.extension? := by
  rw [extension?, extension?, fileName?, fileName?, sameAs_iff.1 h]

theorem hasExtension_eq_of_sameAs {p q : Path} (h : p.sameAs q = true) (extensions : List String) :
    p.hasExtension extensions = q.hasExtension extensions := by
  rw [hasExtension, hasExtension, extension?_eq_of_sameAs h]

end Path

theorem SchemaTool.isSchema_eq_of_sameAs {p q : Path} (h : p.sameAs q = true) :
    isSchema p = isSchema q := by
  rw [isSchema, isSchema, Path.extension?_eq_of_sameAs h]

/-- Whether a file can be read and one of the markers that are not empty occurs in its content. -/
def FileSystem.holdsMarker (fs : FileSystem) (markers : List (List UInt8)) (file : Path) : Bool :=
  match fs.read file with
  | .error _ => false
  | .ok content => markers.any fun m => !m.isEmpty && Text.occursIn m content

/-- Scanning in chunks finds what a search of the whole file finds. -/
theorem MarkerScanner.scanFile_create (markers : List (List UInt8)) (chunkSize : Nat)
    (fs : FileSystem) (file : Path) :
    (create markers chunkSize).scanFile fs file = fs.holdsMarker markers file := by
  rw [scanFile, FileSystem.holdsMarker]
  cases fs.read file with
  | error e => rfl
  | ok content =>
    -- the one delivery is the whole content
    have hdelivered :
        Delivery.delivered [(Delivery.bytes content : Delivery FileError)] = content := by
      cases content <;> simp [Delivery.delivered]
    have hending : Delivery.ending [(Delivery.bytes content : Delivery FileError)] = .ok () := by
      cases content <;> rfl
    have hcontains : (create markers chunkSize).containsMarker content =
        markers.any fun m => !m.isEmpty && Text.occursIn m content := by
      rw [containsMarker, create, List.any_filter]
    simp only [scan_create, hdelivered, hending, hcontains]
    cases markers.any fun m => !m.isEmpty && Text.occursIn m content <;>
      cases (create markers chunkSize).markers.isEmpty <;> rfl

/-! ## 2. Picking files -/

/-- The source files that are not left out and pass a test, in their order and each once. -/
def Project.pick (project : Project) (toolPatterns : List String) (wanted : Path → Bool) :
    List Path :=
  (project.sourceFiles.filter fun file =>
    !project.leavesOut toolPatterns file && wanted file).eraseDupsBy Path.sameAs

namespace Project

variable {project : Project} {toolPatterns : List String} {wanted : Path → Bool}

theorem pick_sublist : (project.pick toolPatterns wanted).Sublist project.sourceFiles :=
  (List.eraseDupsBy_sublist _ _).trans List.filter_sublist

theorem of_mem_pick {file : Path} (h : file ∈ project.pick toolPatterns wanted) :
    project.leavesOut toolPatterns file = false ∧ wanted file = true := by
  have htests := (List.mem_filter.1 ((List.eraseDupsBy_sublist _ _).mem h)).2
  rwa [Bool.and_eq_true, Bool.not_eq_true'] at htests

theorem pairwise_pick : (project.pick toolPatterns wanted).Pairwise fun p q => p.sameAs q = false :=
  (List.pairwise_eraseDupsBy Path.sameAs _).imp fun {p q} h => by
    rwa [Path.sameAs, Bool.beq_comm] at h

/-- A second test may be asked along with the first where files that are the same pass it
together. -/
theorem filter_pick {test : Path → Bool}
    (h : ∀ p ∈ project.sourceFiles, ∀ q ∈ project.sourceFiles,
      p.sameAs q = true → test p = test q) :
    (project.pick toolPatterns wanted).filter test =
      project.pick toolPatterns fun file => wanted file && test file := by
  rw [pick, pick, List.filter_eraseDupsBy, List.filter_filter]
  · simp only [Bool.and_assoc, Bool.and_comm (test _)]
  · exact fun p hp q hq => h p (List.mem_of_mem_filter hp) q (List.mem_of_mem_filter hq)

end Project

namespace Exclusion

variable {project : Project} {toolPatterns : List String} {exclusion : Exclusion}

theorem filter_admitted (h : ofProject project toolPatterns = .ok exclusion) {test : Path → Bool}
    (htest : ∀ p q, p.sameAs q = true → test p = test q) :
    (exclusion.admitted project.sourceFiles).filter test = project.pick toolPatterns test := by
  rw [admitted_eq, Project.pick, List.filter_eraseDupsBy fun p _ q _ => htest p q,
    List.filter_filter]
  simp only [excludes_eq h, Bool.and_comm]

theorem filter_hasExtension (h : ofProject project toolPatterns = .ok exclusion)
    (extensions : List String) :
    (exclusion.admitted project.sourceFiles).filter (·.hasExtension extensions) =
      project.pick toolPatterns (·.hasExtension extensions) :=
  filter_admitted h fun _ _ hsame => Path.hasExtension_eq_of_sameAs hsame extensions

end Exclusion

/-! ## 3. The tools -/

namespace QtTool

variable {tool : QtTool} {fs : FileSystem} {project : Project}

theorem exists_classify_iff : (∃ sources, tool.classify fs project = .ok sources) ↔
    PatternSet.AllPatterns (project.excludedPatterns ++ tool.excludedPatterns) := by
  rw [← Exclusion.exists_ofProject_iff, classify]
  cases Exclusion.ofProject project tool.excludedPatterns <;> simp

theorem eq_of_classify {sources : QtSources} (h : tool.classify fs project = .ok sources) :
    sources.moc = (project.pick tool.excludedPatterns (·.hasExtension tool.scanExtensions)).filter
        (tool.scanner.scanFile fs) ∧
      sources.resources = project.pick tool.excludedPatterns (·.hasExtension ["qrc"]) ∧
      sources.forms = project.pick tool.excludedPatterns (·.hasExtension ["ui"]) := by
  rw [classify] at h
  split at h
  · cases h
  · next exclusion hexclusion =>
    obtain rfl := Except.ok.inj h
    have hpick := Exclusion.filter_hasExtension hexclusion
    exact ⟨congrArg (List.filter _) (hpick tool.scanExtensions), hpick ["qrc"], hpick ["ui"]⟩

/-- Classification reads no file but those that it may make a meta-object step for. -/
theorem classify_congr {fs' : FileSystem}
    (h : ∀ file ∈ project.pick tool.excludedPatterns (·.hasExtension tool.scanExtensions),
      fs'.read file = fs.read file) :
    tool.classify fs' project = tool.classify fs project := by
  rw [classify, classify]
  cases hexclusion : Exclusion.ofProject project tool.excludedPatterns with
  | error e => rfl
  | ok exclusion =>
    rw [← Exclusion.filter_hasExtension hexclusion] at h
    have hmoc : tool.scanner.filterFiles fs' ((exclusion.admitted project.sourceFiles).filter
          (·.hasExtension tool.scanExtensions)) =
        tool.scanner.filterFiles fs ((exclusion.admitted project.sourceFiles).filter
          (·.hasExtension tool.scanExtensions)) := by
      refine List.filter_congr fun file hfile => ?_
      rw [MarkerScanner.scanFile, MarkerScanner.scanFile, h file hfile]
    simp only [hmoc]

/-- Patterns are the only cause of failure. -/
theorem exists_collect_iff : (∃ table, (tool.collect fs project).result = .ok table) ↔
    PatternSet.AllPatterns (project.excludedPatterns ++ tool.excludedPatterns) ∧
      PatternSet.AllPatterns tool.uncompiledPatterns := by
  have hclassify : (∃ sources, tool.classify fs project = .ok sources) ↔ _ := exists_classify_iff
  rw [← hclassify, ← PatternSet.exists_ofTexts_iff, collect]
  cases tool.classify fs project with
  | error e => simp
  | ok sources => cases PatternSet.ofTexts tool.uncompiledPatterns <;> simp

end QtTool

namespace SchemaTool

variable {tool : SchemaTool} {project : Project}

theorem exists_select_iff : (∃ files, tool.select project = .ok files) ↔
    PatternSet.AllPatterns (project.excludedPatterns ++ tool.excludedPatterns) := by
  rw [← Exclusion.exists_ofProject_iff, select]
  cases Exclusion.ofProject project tool.excludedPatterns <;> simp

theorem eq_of_select {files : List Path} (h : tool.select project = .ok files) :
    files = project.pick tool.excludedPatterns isSchema := by
  rw [select] at h
  split at h
  · cases h
  · next exclusion hexclusion =>
    obtain rfl := Except.ok.inj h
    exact Exclusion.filter_admitted hexclusion fun _ _ => isSchema_eq_of_sameAs

end SchemaTool

end BuildSteps
