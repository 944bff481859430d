import BuildSteps.FileSystem

/-!
# Marker scanning

A scanner looks for byte strings in a stream that arrives in pieces. It searches a window that holds
the newest piece and, before it, as many earlier bytes as an occurrence that straddles the border can
need: one less than the longest marker has.
-/

namespace BuildSteps

/-- Looks for any of its markers, reading `chunkSize` bytes at a time. -/
structure MarkerScanner where
  markers : List (List UInt8)
  chunkSize : Nat
  deriving DecidableEq, Repr

inductive Delivery (ε : Type) where
  | bytes (content : List UInt8)
  | interrupted
  | failed (error : ε)
  deriving DecidableEq, Repr

namespace MarkerScanner

/-- What a round of a scan ends with: a window for the next read, or the answer. -/
inductive Round (ε : Type) where
  | more (window : List UInt8)
  | answer (found : Except ε Bool)

def defaultChunkSize : Nat := 4096

/-- The scanner for markers; empty ones are left out, and a chunk has at least one byte. -/
def create (markers : List (List UInt8)) (chunkSize : Nat) : MarkerScanner :=
  ⟨markers.filter (!·.isEmpty), max chunkSize 1⟩

def qtMarkers : List String := ["Q_OBJECT", "Q_GADGET"]

def qt : MarkerScanner :=
  create (qtMarkers.map fun m => m.toUTF8.toList) defaultChunkSize

def carryLength (s : MarkerScanner) : Nat :=
  (s.markers.map List.length).foldl max 0 - 1

def containsMarker (s : MarkerScanner) (bytes : List UInt8) : Bool :=
  s.markers.any fun m => Text.occursIn m bytes

def carry (s : MarkerScanner) (window : List UInt8) : List UInt8 :=
  window.drop (window.length - s.carryLength)

/-- One round: what a read brings is searched behind the window, and the end of both is kept. A
delivery of no bytes ends the stream. -/
def round {ε : Type} (s : MarkerScanner) (window : List UInt8) : Delivery ε → Round ε
  | .interrupted => .more window
  | .failed e => .answer (.error e)
  | .bytes content =>
    if content.isEmpty then .answer (.ok false)
    else if s.containsMarker (window ++ content) then .answer (.ok true)
    else .more (s.carry (window ++ content))

/-- Scans what is delivered from now on, round by round; `window` holds the last bytes delivered
before. The second component is what the answer was given without reading. -/
def scanFrom {ε : Type} (s : MarkerScanner) (window : List UInt8) :
    List (Delivery ε) → Except ε Bool × List (Delivery ε)
  | [] => (.ok false, [])
  | d :: rest =>
    match s.round window d with
    | .more next => s.scanFrom next rest
    | .answer found => (found, rest)

def chunks (size : Nat) : Nat → List UInt8 → List (List UInt8)
  | 0, _ => []
  | count + 1, bytes =>
    if bytes.isEmpty then [] else bytes.take size :: chunks size count (bytes.drop size)

/-- What reads of at most `chunkSize` bytes bring when larger contents wait to be read. -/
def deliveries {ε : Type} (s : MarkerScanner) (waiting : List (Delivery ε)) : List (Delivery ε) :=
  waiting.flatMap fun d =>
    match d with
    | .bytes content =>
      if content.isEmpty then [d] else (chunks s.chunkSize content.length content).map .bytes
    | _ => [d]

/-- Whether a marker occurs in what a stream delivers before it ends, and the reads left to do. -/
def scanReads {ε : Type} (s : MarkerScanner) (waiting : List (Delivery ε)) :
    Except ε Bool × List (Delivery ε) :=
  if s.markers.isEmpty then (.ok false, s.deliveries waiting)
  else s.scanFrom [] (s.deliveries waiting)

def scan {ε : Type} (s : MarkerScanner) (waiting : List (Delivery ε)) : Except ε Bool :=
  (s.scanReads waiting).1

/-- Whether a marker occurs in a file; one that cannot be read holds none. -/
def scanFile (s : MarkerScanner) (fs : FileSystem) (p : Path) : Bool :=
  match fs.read p with
  | .error _ => false
  | .ok content =>
    match s.scan (ε := FileError) [.bytes content] with
    | .ok found => found
    | .error _ => false

def filterFiles (s : MarkerScanner) (fs : FileSystem) (files : List Path) : List Path :=
  files.filter (s.scanFile fs)

end MarkerScanner

end BuildSteps
