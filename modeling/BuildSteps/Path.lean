import BuildSteps.Text.Basic
import BuildSteps.Text.Distinct

/-!
# Paths

A path is kept as the text it was written with. Its meaning is its list of components: repeated
separators and single dots inside it carry none. Two paths are the same when their components are;
`=` compares their texts. A command line shows a path relative to a base folder where both allow it,
and in double quotes when it holds a blank.
-/

namespace BuildSteps

/-- A file path, as written. -/
structure Path where
  text : String
  deriving DecidableEq, Repr, Inhabited

namespace Path

/-! ## 1. Components -/

/-- One step of a path. A single dot counts only at the start. -/
inductive Component where
  | root
  | current
  | parent
  | name (text : String)
  deriving DecidableEq, Repr

def Component.text : Component → String
  | .root => "/"
  | .current => "."
  | .parent => ".."
  | .name text => text

def pieces (p : Path) : List String := Text.split '/' p.text

/-- What a piece that is not the first one stands for. -/
def componentOfPiece? (piece : String) : Option Component :=
  if piece = "" ∨ piece = "." then none
  else if piece = ".." then some .parent
  else some (.name piece)

def annotate : List String → List (String × Option Component)
  | [] => []
  | [piece] => [(piece, if piece = "." then some .current else componentOfPiece? piece)]
  | piece :: pieces =>
    (piece,
        if piece = "" then some .root
        else if piece = "." then some .current
        else componentOfPiece? piece) ::
      pieces.map fun piece => (piece, componentOfPiece? piece)

def components (p : Path) : List Component := (annotate p.pieces).filterMap (·.2)

/-- Whether two paths have the same components. -/
def sameAs (p q : Path) : Bool := p.components == q.components

def isIn (p : Path) (paths : List Path) : Bool := paths.any p.sameAs

def insertLast (paths : List Path) (p : Path) : List Path :=
  if p.isIn paths then paths else paths ++ [p]

def insertAllLast (paths added : List Path) : List Path := added.foldl insertLast paths

theorem sameAs_iff {p q : Path} : p.sameAs q = true ↔ p.components = q.components := by
  rw [sameAs, beq_iff_eq]

theorem isIn_iff {p : Path} {paths : List Path} :
    p.isIn paths = true ↔ ∃ q ∈ paths, p.components = q.components := by
  simp only [isIn, List.any_eq_true, sameAs_iff]

theorem insertAllLast_eq (paths added : List Path) :
    insertAllLast paths added =
      paths ++ (added.filter fun p => !p.isIn paths).eraseDupsBy sameAs :=
  List.foldl_append_unless sameAs paths added

theorem insertAllLast_nil (added : List Path) :
    insertAllLast [] added = added.eraseDupsBy sameAs := by
  rw [insertAllLast_eq, List.nil_append]
  congr 1
  exact List.filter_eq_self.2 fun _ _ => rfl

@[simp] theorem isIn_insertLast {p q : Path} {paths : List Path} :
    p.isIn (insertLast paths q) = true ↔ p.isIn paths = true ∨ p.components = q.components := by
  rw [insertLast]
  split
  · next hq =>
    refine ⟨.inl, fun h => h.elim id fun hpq => ?_⟩
    obtain ⟨r, hr, hqr⟩ := isIn_iff.1 hq
    exact isIn_iff.2 ⟨r, hr, hpq.trans hqr⟩
  · simp only [isIn_iff, List.mem_append, List.mem_singleton]
    constructor
    · rintro ⟨r, hr | rfl, hpr⟩
      · exact .inl ⟨r, hr, hpr⟩
      · exact .inr hpr
    · rintro (⟨r, hr, hpr⟩ | hpq)
      · exact ⟨r, .inl hr, hpr⟩
      · exact ⟨q, .inr rfl, hpq⟩

@[simp] theorem isIn_insertAllLast {p : Path} {paths added : List Path} :
    p.isIn (insertAllLast paths added) = true ↔ p.isIn paths = true ∨ p.isIn added = true := by
  rw [insertAllLast]
  induction added generalizing paths with
  | nil => simp [isIn]
  | cons q added ih =>
    rw [List.foldl_cons, ih, isIn_insertLast, or_assoc]
    refine or_congr_right ?_
    simp only [isIn_iff, List.mem_cons, exists_eq_or_imp]

theorem insertAllLast_of_isIn {paths added : List Path} (h : ∀ p ∈ added, p.isIn paths = true) :
    insertAllLast paths added = paths := by
  rw [insertAllLast_eq, List.filter_eq_nil_iff.2 fun p hp => by simp [h p hp]]
  exact List.append_nil paths

@[simp] theorem insertAllLast_insertAllLast_self (paths added : List Path) :
    insertAllLast (insertAllLast paths added) added = insertAllLast paths added :=
  insertAllLast_of_isIn fun p hp => isIn_insertAllLast.2 (.inr (isIn_iff.2 ⟨p, hp, rfl⟩))

/-! ## 2. Joining and taking apart -/

def isAbsolute (p : Path) : Bool := p.text.toList.head? == some '/'

/-- The second path seen from the first: an absolute one replaces it, another one is appended,
with a separator between the two unless the first is empty or ends in one. -/
def join (p q : Path) : Path :=
  if q.isAbsolute then q
  else if p.text.isEmpty || p.text.toList.getLast? == some '/' then ⟨p.text ++ q.text⟩
  else ⟨p.text ++ "/" ++ q.text⟩

def ofComponents (components : List Component) : Path :=
  components.foldl (fun p c => p.join ⟨c.text⟩) ⟨""⟩

/-- Pieces in reverse order without the leading ones that carry no meaning; one piece is always
left. -/
def dropSilent : List String → List String
  | [] => []
  | [piece] => [piece]
  | piece :: pieces => if piece = "" ∨ piece = "." then dropSilent pieces else piece :: pieces

/-- The path without its last component; nothing for the root and for the empty path. -/
def parent? (p : Path) : Option Path :=
  match dropSilent p.pieces.reverse with
  | [] => none
  | [piece] => if piece = "" then none else some ⟨""⟩
  | _ :: rest =>
    match dropSilent rest with
    | [""] => some ⟨"/"⟩
    | rest => some ⟨Text.join "/" rest.reverse⟩

def fileName? (p : Path) : Option String :=
  match p.components.getLast? with
  | some (.name text) => some text
  | _ => none

def fileName (p : Path) : String := p.fileName?.getD ""

/-- A file name cut at its last dot, which a name that only starts with a dot does not have. -/
def splitExtension (name : String) : String × Option String :=
  let reversed := name.toList.reverse
  let extension := reversed.takeWhile (· != '.')
  match reversed.drop extension.length with
  | [] => (name, none)
  | [_] => (name, none)
  | _ :: stem => (String.ofList stem.reverse, some (String.ofList extension.reverse))

def fileStem (p : Path) : String := (p.fileName?.map fun name => (splitExtension name).1).getD ""

def extension? (p : Path) : Option String := p.fileName?.bind fun name => (splitExtension name).2

def dropComponents : Nat → List (String × Option Component) → List (String × Option Component)
  | 0, pieces => pieces
  | _, [] => []
  | n + 1, (_, some _) :: pieces => dropComponents n pieces
  | n + 1, (_, none) :: pieces => dropComponents (n + 1) pieces

def trimmedText (pieces : List (String × Option Component)) : String :=
  match (pieces.reverse.dropWhile (·.2.isNone)).reverse with
  | [(_, some .root)] => "/"
  | pieces => Text.join "/" (pieces.map (·.1))

/-- The rest of the path after the components of `base`, when it starts with them. -/
def below? (base p : Path) : Option Path :=
  if base.components.isPrefixOf p.components then
    let rest := dropComponents base.components.length (annotate p.pieces)
    some ⟨trimmedText (if base.components.isEmpty then rest else rest.dropWhile (·.2.isNone))⟩
  else none

def commonAncestor (p q : Path) : Path :=
  ofComponents (((p.components.zip q.components).takeWhile fun pair => pair.1 == pair.2).map (·.1))

/-- The names that remain when every `..` takes back the name before it. -/
def resolveNames (components : List Component) : List String :=
  components.foldl (fun names c =>
    match c with
    | .name text => names ++ [text]
    | .parent => names.dropLast
    | .root | .current => names) []

def resolveFrom (p workingDirectory : Path) : Path :=
  let joined := workingDirectory.join p
  let names := Text.join "/" (resolveNames joined.components)
  if joined.isAbsolute then ⟨"/" ++ names⟩ else ⟨names⟩

/-! ## 3. Paths on a command line -/

/-- The way from the folder with components `base` to a path. `fresh` holds as long as all
components so far were shared; nothing when the way would have to leave an unknown folder. -/
def wayFrom? (fresh : Bool) : List Component → List Component → Option (List Component)
  | rest, [] => some rest
  | [], _ :: base => (wayFrom? false [] base).map (.parent :: ·)
  | c :: rest, b :: base =>
    if fresh ∧ c = b then wayFrom? fresh rest base
    else if b = .current then (wayFrom? false rest base).map (c :: ·)
    else if b = .parent then none
    else some (.parent :: base.map (fun _ => .parent) ++ c :: rest)

/-- The way from a folder to a path, when one of them is absolute only if the other is. -/
def difference? (p base : Path) : Option Path :=
  if p.isAbsolute = base.isAbsolute then
    (wayFrom? true p.components base.components).map ofComponents
  else if p.isAbsolute then some p
  else none

def relativeTo (p : Path) (base : Option Path) : Path :=
  (base.bind p.difference?).getD p

def quoted (p : Path) : String :=
  if ' ' ∈ p.text.toList then "\"" ++ p.text ++ "\"" else p.text

end Path

end BuildSteps
