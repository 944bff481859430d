import BuildSteps.Path

/-!
# File systems

A file system is a value: what stands at each place below the root, and a working directory. A place
is the list of names that leads to it. Looking a path up walks its pieces from the root or from the
working directory: `..` goes to the enclosing folder, a link is replaced by its target, and more
than forty links on the way count as a loop. Nothing that stands in a file system is ever replaced: an
operation either adds places or fails.
-/

namespace BuildSteps

/-! ## 1. Looking up -/

inductive FileError where
  | notFound
  | notDirectory
  | isDirectory
  | alreadyExists
  | tooManyLinks
  | nameTooLong
  | permissionDenied
  | nulInName
  | notText
  | noParent
  deriving DecidableEq, Repr

def FileError.message : FileError → String
  | notFound => "No such file or directory (os error 2)"
  | permissionDenied => "Permission denied (os error 13)"
  | alreadyExists => "File exists (os error 17)"
  | notDirectory => "Not a directory (os error 20)"
  | isDirectory => "Is a directory (os error 21)"
  | nameTooLong => "File name too long (os error 36)"
  | tooManyLinks => "Too many levels of symbolic links (os error 40)"
  | nulInName => "file name contained an unexpected NUL byte"
  | notText => "stream did not contain valid UTF-8"
  | noParent => "failed to create whole tree"

/-- The names that lead from the root to a place. -/
abbrev Place := List String

inductive Node where
  | directory
  | file (content : List UInt8)
  | link (target : String)
  deriving DecidableEq, Repr

def Node.isDirectory : Node → Bool
  | directory => true
  | _ => false

def Node.isFile : Node → Bool
  | file _ => true
  | _ => false

/-- Everything below the root, and the place that relative paths start from. -/
structure FileSystem where
  workingDirectory : Place
  entries : List (Place × Node)
  deriving Repr

namespace FileSystem

def pathOf (place : Place) : Path := ⟨"/" ++ Text.join "/" place⟩

def currentPath (fs : FileSystem) : Path := pathOf fs.workingDirectory

/-- What stands at a place; links are not followed. The root is always a folder. -/
def node? (fs : FileSystem) (place : Place) : Option Node :=
  if place.isEmpty then some .directory
  else (fs.entries.find? fun entry => entry.1 == place).map (·.2)

def isDirectoryAt (fs : FileSystem) (place : Place) : Bool :=
  match fs.node? place with
  | some node => node.isDirectory
  | none => false

def insert (fs : FileSystem) (place : Place) (node : Node) : FileSystem :=
  { fs with entries := fs.entries ++ [(place, node)] }

inductive Walked where
  /-- All pieces were used up at a place where something stands. -/
  | arrived (place : Place)
  /-- The walk met a link in a folder, with pieces still to walk after it. -/
  | link (folder : Place) (target : String) (rest : List String)
  /-- Nothing has the name in the folder. -/
  | missing (folder : Place) (name : String) (rest : List String)
  deriving DecidableEq, Repr

/-- Walks along pieces until a link or a missing name. `followLast` tells whether a link that is the
last piece counts as met or as arrived at. -/
def walk (fs : FileSystem) (followLast : Bool) (place : Place) :
    List String → Except FileError Walked
  | [] => .ok (.arrived place)
  | piece :: rest =>
    if !fs.isDirectoryAt place then .error .notDirectory
    else if piece = "" ∨ piece = "." then fs.walk followLast place rest
    else if piece = ".." then fs.walk followLast place.dropLast rest
    else if piece.utf8ByteSize > 255 then .error .nameTooLong
    else
      match fs.node? (place ++ [piece]) with
      | none => .ok (.missing place piece rest)
      | some (.link target) =>
        if rest.isEmpty && !followLast then .ok (.arrived (place ++ [piece]))
        else .ok (.link place target rest)
      | some _ => fs.walk followLast (place ++ [piece]) rest

def startOf (folder : Place) (p : Path) : Place := if p.isAbsolute then [] else folder

/-- Walks along pieces, replacing links by their targets at most `links` times. -/
def resolve (fs : FileSystem) (followLast : Bool) :
    Nat → Place → List String → Except FileError Walked
  | 0, _, _ => .error .tooManyLinks
  | links + 1, place, pieces =>
    match fs.walk followLast place pieces with
    | .ok (.link folder target rest) =>
      if target.isEmpty then .error .notFound
      else fs.resolve followLast links (startOf folder ⟨target⟩)
        (Text.split '/' target ++ rest)
    | walked => walked

/-- Why a path is not looked up at all, whatever the file system holds. -/
def refusal? (p : Path) : Option FileError :=
  if p.text.isEmpty then some .notFound
  else if '\x00' ∈ p.text.toList then some .nulInName
  else if p.text.utf8ByteSize > 4095 then some .nameTooLong
  else none

def follow (fs : FileSystem) (followLast : Bool) (p : Path) : Except FileError Walked :=
  match refusal? p with
  | some e => .error e
  | none => fs.resolve followLast 41 (startOf fs.workingDirectory p) p.pieces

def find (fs : FileSystem) (p : Path) : Except FileError Place :=
  match fs.follow true p with
  | .ok (.arrived place) => .ok place
  | .ok _ => .error .notFound
  | .error e => .error e

def lookup? (fs : FileSystem) (p : Path) : Option Node :=
  match fs.find p with
  | .ok place => fs.node? place
  | .error _ => none

def pathExists (fs : FileSystem) (p : Path) : Bool := (fs.lookup? p).isSome

def isFile (fs : FileSystem) (p : Path) : Bool := (fs.lookup? p).any Node.isFile

def isDirectory (fs : FileSystem) (p : Path) : Bool := (fs.lookup? p).any Node.isDirectory

def read (fs : FileSystem) (p : Path) : Except FileError (List UInt8) :=
  match fs.find p with
  | .error e => .error e
  | .ok place =>
    match fs.node? place with
    | some (.file content) => .ok content
    | some .directory => .error .isDirectory
    | _ => .error .notFound

def readText (fs : FileSystem) (p : Path) : Except FileError String :=
  match fs.read p with
  | .error e => .error e
  | .ok content =>
    match String.fromUTF8? ⟨content.toArray⟩ with
    | some text => .ok text
    | none => .error .notText

/-! ## 2. Creating folders and files -/

def dropTrailing (pieces : List String) : List String :=
  (pieces.reverse.dropWhile (· == "")).reverse

/-- Creates one folder. Separators at the end of the path count for nothing. -/
def makeDirectory (fs : FileSystem) (p : Path) : Except FileError FileSystem :=
  match refusal? p with
  | some e => .error e
  | none =>
    match fs.resolve false 41 (startOf fs.workingDirectory p) (dropTrailing p.pieces) with
    | .error e => .error e
    | .ok (.missing folder name []) => .ok (fs.insert (folder ++ [name]) .directory)
    | .ok (.missing _ _ _) => .error .notFound
    | .ok _ => .error .alreadyExists

/-- Creates a folder and those around it that are missing, as far as it goes; at most `depth`
folders are looked at. Folders made before a failure stay. -/
def makeDirectoriesWithin : Nat → FileSystem → Path → Except FileError Unit × FileSystem
  | 0, fs, _ => (.error .noParent, fs)
  | depth + 1, fs, p =>
    if p.components.isEmpty then (.ok (), fs)
    else
      match fs.makeDirectory p with
      | .ok made => (.ok (), made)
      | .error .notFound =>
        match p.parent? with
        | none => (.error .noParent, fs)
        | some parent =>
          match makeDirectoriesWithin depth fs parent with
          | (.error e, made) => (.error e, made)
          | (.ok (), made) =>
            match made.makeDirectory p with
            | .ok done => (.ok (), done)
            | .error e => (if made.isDirectory p then .ok () else .error e, made)
      | .error e => (if fs.isDirectory p then .ok () else .error e, fs)

def makeDirectories (fs : FileSystem) (p : Path) : Except FileError Unit × FileSystem :=
  makeDirectoriesWithin (p.pieces.length + 2) fs p

/-- Creates a file where nothing stands, not even a link. -/
def writeNew (fs : FileSystem) (p : Path) (content : List UInt8) : Except FileError FileSystem :=
  match fs.follow false p with
  | .error e => .error e
  | .ok (.missing folder name []) => .ok (fs.insert (folder ++ [name]) (.file content))
  | .ok (.missing _ _ rest) =>
    if rest.all (· == "") then .error .isDirectory else .error .notFound
  | .ok _ => .error .alreadyExists

/-! ## 3. Walking a folder -/

def namesBefore : List String → List String → Bool
  | [], _ => true
  | _ :: _, [] => false
  | a :: as, b :: bs => if a = b then namesBefore as bs else decide (a < b)

def insertOrdered (names : List String) : List (List String) → List (List String)
  | [] => [names]
  | other :: rest =>
    if namesBefore names other then names :: other :: rest
    else other :: insertOrdered names rest

def filesBelow (fs : FileSystem) (folder : Place) : List (List String) :=
  (fs.entries.filterMap fun entry =>
    if entry.2.isFile && folder.isPrefixOf entry.1 && entry.1 != folder then
      some (entry.1.drop folder.length)
    else none).foldr insertOrdered []

/-- The paths of all regular files below a folder, in order; nothing where there is no folder. -/
def walkFiles (fs : FileSystem) (folder : Path) : List Path :=
  match fs.find folder with
  | .error _ => []
  | .ok place =>
    (fs.filesBelow place).map fun names => names.foldl (fun p name => p.join ⟨name⟩) folder

end FileSystem

end BuildSteps
