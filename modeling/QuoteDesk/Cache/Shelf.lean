import QuoteDesk.Cache.Store

/-
A directory with one file per key. Writing goes to a temporary file beside the others,
which then takes the name of the entry, so that a reader finds the old text or the new
one. When a step is refused the temporary file is removed and all files are as before.
-/
namespace QuoteDesk

/-- What a name in the directory stands for. -/
inductive Node where
  | file (content : ByteArray)
  | folder

/-- The directory: not made yet, barred by a plain file of its name, or there. -/
inductive Shelf where
  | absent
  | barred
  | there (nodes : Table Node)

/-- The steps of writing that the system can refuse; a file may be filled in part by then. -/
inductive WriteStep where
  | makeFolder
  | create
  | fill (written : Nat)
  | rename
  deriving DecidableEq, Repr

namespace Shelf

def folderName : String := "market-cli"

def fileName (key : String) : String := key ++ ".json"

/-- The place of an entry inside the cache directory. -/
def path (key : String) : String := folderName ++ "/" ++ fileName key

/-- Bytes that a name can have at most. -/
def longestName : Nat := 255

/-- A temporary name of a key; `n` tells several apart. -/
def temporaryName (key : String) (n : Nat) : String :=
  let ds := Digits.write n
  "." ++ key ++ "." ++ String.ofList (List.replicate (8 - ds.length) '0' ++ ds) ++ ".tmp"

/-- A temporary name that no node has. -/
def freshName (nodes : Table Node) (key : String) : String :=
  match (List.range (nodes.length + 1)).find? fun n =>
      (nodes.lookup (temporaryName key n)).isNone with
  | some n => temporaryName key n
  | none => temporaryName key (nodes.length + 1)

def remove (nodes : Table Node) (name : String) : Table Node := nodes.filter (·.1 ≠ name)

/-- Whether a key gives the name of a node right in the directory. Other keys, with slashes,
lead through folders or out of the directory, of which nothing is kept here: they are taken
to find nothing and not to be written. -/
def isPlainKey (key : String) : Bool := !key.toList.contains '/'

/-- The directory that a key with slashes would lead through. -/
def firstPart (key : String) : String := String.ofList (key.toList.takeWhile (· ≠ '/'))

variable (directory : String)

def unreadable (key : String) : Failure :=
  .fault (.store (.unreadable (directory ++ "/" ++ path key)))

def unwritable (key : String) : Failure :=
  .fault (.store (.unwritable (directory ++ "/" ++ path key)))

/-- The node at the place of an entry; nothing if there is none. -/
def find (s : Shelf) (key : String) : Outcome (Option Node) :=
  if key.toList.contains '\x00' then .error (.defect .badValue)
  else
    match s with
    | .absent => .ok none
    | .barred => .error (unreadable directory key)
    | .there nodes =>
      if isPlainKey key then
        if longestName < (fileName key).utf8ByteSize then .error (unreadable directory key)
        else .ok (nodes.lookup (fileName key))
      else
        match nodes.lookup (firstPart key) with
        | some (.file _) => .error (unreadable directory key)
        | _ => .ok none

/-- The entry of a key. A file that holds no entry counts as none. -/
def read (s : Shelf) (now : Moment) (key : String) : Outcome (Option Entry) := do
  match ← s.find directory key with
  | none => return none
  | some .folder => .error (unreadable directory key)
  | some (.file content) => return Entry.ofBytes? now content

/-- A file takes the place of another name; a folder of that name does not give way. -/
def rename (nodes : Table Node) (old new : String) : Option (Table Node) :=
  match nodes.lookup old, nodes.lookup new with
  | _, some .folder => none
  | some node, _ => some ((remove nodes old).set new node)
  | none, _ => none

/-- The nodes with the written entry, or those that are left when a step fails and the
temporary file has been removed: `refused` is the step that fails for a reason that lies
outside. -/
def install (refused : Option WriteStep) (nodes : Table Node) (key : String)
    (content : ByteArray) : Except (Table Node) (Table Node) :=
  let temporary := freshName nodes key
  if refused = some .create || !isPlainKey key || longestName < temporary.utf8ByteSize then
    .error nodes
  else
    let created := nodes.set temporary (.file .empty)
    match refused with
    | some (.fill written) =>
      .error (remove (created.set temporary (.file (content.extract 0 written))) temporary)
    | _ =>
      let filled := created.set temporary (.file content)
      match if refused = some .rename then none else rename filled temporary (fileName key) with
      | some nodes => .ok nodes
      | none => .error (remove filled temporary)

/-- The nodes, after making the directory if there is none. -/
def opened : Shelf → Option (Table Node)
  | .absent => some []
  | .barred => none
  | .there nodes => some nodes

def writeUnless (refused : Option WriteStep) (s : Shelf) (e : Entry) : Outcome Unit × Shelf :=
  match e.text with
  | .error f => (.error f, s)
  | .ok text =>
    if refused = some .makeFolder then (.error (unwritable directory e.key), s)
    else
      match s.opened with
      | none => (.error (unwritable directory e.key), s)
      | some nodes =>
        if e.key.toList.contains '\x00' then (.error (.defect .badValue), .there nodes)
        else
          match install refused nodes e.key text.toUTF8 with
          | .ok nodes => (.ok (), .there nodes)
          | .error nodes => (.error (unwritable directory e.key), .there nodes)

/-- The names in the directory in order, if it is there. -/
def names? : Shelf → Option (List String)
  | .there nodes => some ((nodes.map (·.1)).mergeSort (· ≤ ·))
  | _ => none

/-- The text of the file of a key. -/
def text? (s : Shelf) (key : String) : Option String :=
  match s with
  | .there nodes =>
    match nodes.lookup (fileName key) with
    | some (.file content) => String.fromUTF8? content
    | _ => none
  | _ => none

/-- A node put at the place of an entry from outside. -/
def place (s : Shelf) (key : String) (n : Node) : Shelf :=
  .there ((s.opened.getD []).set (fileName key) n)

end Shelf

/-- A shelf with the name of the directory that holds it. -/
structure Files where
  directory : String
  shelf : Shelf

instance : Store Files where
  read f now key := f.shelf.read f.directory now key
  write f e :=
    let (o, shelf) := f.shelf.writeUnless f.directory none e
    (o, { f with shelf := shelf })

end QuoteDesk
