import LineBasic.Document.Node
import LineBasic.Settings

namespace LineBasic

namespace Document

def complaint (line : Nat) (parts : List Bytes) : Bytes :=
  Bytes.ofString "line " ++ Bytes.ofNat line ++ Bytes.ofString ": " ++ parts.flatten

-- A value in a complaint: at most ten bytes of it.
def excerpt (value : Bytes) : Bytes :=
  if 10 < value.length then [96] ++ value.take 7 ++ Bytes.ofString "...`" else [96] ++ value ++ [96]

def nodeText : Node → Bytes
  | .scalar _ _ value => value
  | .reference _ name _ => name
  | _ => []

def nodeTag : Node → Bytes
  | .scalar _ tag _ => tag
  | .sequence _ tag _ => tag
  | .mapping _ tag _ => tag
  | .reference _ _ _ => []

def nullTag : Bytes := Bytes.ofString "!!null"

-- A node that does not fit where it stands. The text of a collection is not shown.
def misfit (node : Node) (type : String) : Bytes :=
  let tag := nodeTag node
  let isCollection := tag = Bytes.ofString "!!seq" ∨ tag = Bytes.ofString "!!map"
  let shown := if isCollection then nodeText node else [32] ++ excerpt (nodeText node)
  complaint node.line [Bytes.ofString "cannot unmarshal ", tag, shown, Bytes.ofString " into ",
    Bytes.ofString type]

-- Keys are the same if they are nodes of one kind with the same text.
def sameKey : Node → Node → Bool
  | .scalar _ _ a, .scalar _ _ b => a == b
  | .sequence _ _ _, .sequence _ _ _ => true
  | .mapping _ _ _, .mapping _ _ _ => true
  | .reference _ a _, .reference _ b _ => a == b
  | _, _ => false

-- A complaint for every pair of keys of a mapping that are the same.
def repeatedKeys : List Node → List Bytes
  | [] => []
  | key :: rest =>
    (rest.filter (sameKey key)).map (fun other =>
      complaint other.line [Bytes.ofString "mapping key ", Text.quoted (nodeText other),
        Bytes.ofString " already defined at line ", Bytes.ofNat key.line]) ++ repeatedKeys rest

-- What a node gives where a value of some type is wanted: nothing, a value, or complaints.
inductive Decoded (α : Type) where
  | absent
  | value (a : α)
  | wrong (complaints : List Bytes)

structure Wanted where
  name : String
  nullable : String

-- Decodes a scalar with `convert`. Collections fit nowhere.
def decode {α : Type} (wanted : Wanted) (convert : Bytes → Scalar → Option α) (node : Node) :
    Except Malformed (Decoded α) :=
  let type := if nodeTag node = nullTag then wanted.nullable else wanted.name
  match node with
  | .mapping _ _ entries =>
    match repeatedKeys (entries.map Prod.fst) with
    | [] => .ok (.wrong [misfit node type])
    | complaints => .ok (.wrong complaints)
  | .scalar line tag text =>
    match Scalar.ofTagged line tag text with
    | .error malformed => .error malformed
    | .ok .null => .ok .absent
    | .ok scalar =>
      match convert text scalar with
      | some a => .ok (.value a)
      | none => .ok (.wrong [misfit node wanted.name])
  | _ => .ok (.wrong [misfit node type])

def asText (text : Bytes) : Scalar → Option Bytes
  | .string meant => some meant
  | _ => some text

def asBool (_ : Bytes) : Scalar → Option Bool
  | .boolean b => some b
  | .string text =>
    if ["y", "Y", "yes", "Yes", "YES", "on", "On", "ON"].any (Bytes.ofString · == text) then
      some true
    else if ["n", "N", "no", "No", "NO", "off", "Off", "OFF"].any (Bytes.ofString · == text) then
      some false
    else none
  | _ => none

-- An integer of sixty-four bits, or a float without its fraction. A float too far below zero
-- becomes the least integer.
def asInt (_ : Bytes) : Scalar → Option Int
  | .integer n => if n < Integer.half then some n else none
  | .float x =>
    if x.le (Double.ofInt Integer.half) then
      match x.truncate? with
      | some n => some (if -Integer.half ≤ n ∧ n < Integer.half then n else -Integer.half)
      | none => some (-Integer.half)
    else none
  | _ => none

end Document

namespace Settings

open Document

inductive LoadError where
  | malformed (m : Malformed)
  | misfits (complaints : List Bytes)
  | invalid (message : Bytes)

namespace LoadError

def message (path : Bytes) (e : LoadError) : Bytes :=
  let text := match e with
    | .malformed m => m.message
    | .misfits complaints =>
      Bytes.ofString "yaml: unmarshal errors:" ++
        complaints.flatMap fun complaint => Bytes.ofString "\n  " ++ complaint
    | .invalid message => message
  Bytes.ofString "config " ++ path ++ Bytes.ofString ": " ++ text

end LoadError

structure Progress where
  settings : Settings
  complaints : List Bytes

namespace Progress

def complain (p : Progress) (complaints : List Bytes) : Progress :=
  { p with complaints := p.complaints ++ complaints }

def use {α : Type} (p : Progress) (decoded : Decoded α) (absent : Settings → Settings)
    (set : Settings → α → Settings) : Progress :=
  match decoded with
  | .absent => { p with settings := absent p.settings }
  | .value a => { p with settings := set p.settings a }
  | .wrong complaints => p.complain complaints

end Progress

def typeName : String := "internal.Config"

def aText : Wanted := ⟨"string", "string"⟩

def aBool : Wanted := ⟨"bool", "bool"⟩

def aBoolOrNothing : Wanted := ⟨"bool", "*bool"⟩

def anInt : Wanted := ⟨"int", "int"⟩

def fieldNames : List String :=
  ["log_level", "trace", "color", "max_steps"]

def setField (name : Bytes) (node : Node) (p : Progress) : Except Malformed Progress := do
  if name = Bytes.ofString "log_level" then
    return p.use (← decode aText asText node) id fun s a => { s with logLevel := a }
  else if name = Bytes.ofString "trace" then
    return p.use (← decode aBool asBool node) id fun s a => { s with trace := a }
  else if name = Bytes.ofString "color" then
    return p.use (← decode aBoolOrNothing asBool node) (fun s => { s with color := none })
      fun s a => { s with color := some a }
  else
    return p.use (← decode anInt asInt node) id fun s a => { s with maxSteps := a }

-- The names seen so far: those that some mapping around this one has set, if there is one, and
-- those set by this mapping itself.
structure Seen where
  outer : Option (List Bytes)
  own : List Bytes

-- The entries of a mapping one after the other. A key that stands for nothing is passed over, and
-- so is one that a mapping around this one has.
def setEntries (t : Tree) :
    List (Node × Node) → Seen → Progress → Except Malformed (Progress × Seen)
  | [], seen, p => .ok (p, seen)
  | (key, value) :: rest, seen, p => do
    match ← decode aText asText (t.target key) with
    | .absent => setEntries t rest seen p
    | .wrong complaints => setEntries t rest seen (p.complain complaints)
    | .value name =>
      if (seen.outer.getD []).contains name then setEntries t rest seen p
      else
        let seen := { seen with outer := seen.outer.map (name :: ·) }
        let about (what : String) := complaint key.line [Bytes.ofString "field ", name,
          Bytes.ofString what, Bytes.ofString typeName]
        if !fieldNames.any (Bytes.ofString · == name) then
          setEntries t rest seen (p.complain [about " not found in type "])
        else if seen.own.contains name then
          setEntries t rest seen (p.complain [about " already set in type "])
        else
          let p ← setField name (t.target value) p
          setEntries t rest { seen with own := name :: seen.own } p

def isMergeKey : Node → Bool
  | .scalar _ tag value => value == Bytes.ofString "<<" && tag == Bytes.ofString "!!merge"
  | _ => false

def textKeys (t : Tree) (keys : List Node) : List Bytes :=
  keys.filterMap fun key =>
    match t.target key with
    | .scalar line tag value =>
      match Scalar.ofTagged line tag value with
      | .ok (.string text) => some text
      | _ => none
    | _ => none

-- The mappings that a node under a merge key gives.
def mergedMappings (t : Tree) (node : Node) : Except Malformed (List Node) :=
  let wanted := Malformed.mk (node.line - 1)
    "map merge requires map or sequence of maps as the value"
  let mapping? (node : Node) : Except Malformed Node :=
    match t.target node with
    | .mapping line tag entries => .ok (.mapping line tag entries)
    | _ => .error wanted
  match node with
  | .sequence _ _ items => items.mapM mapping?
  | _ => do return [← mapping? node]

-- A mapping and, after it, the mappings merged into it, nested less than `depth` deep. The names
-- in `outer` belong to mappings around it and are not set again.
def setMapping (t : Tree) : Nat → Option (List Bytes) → Node → Progress →
    Except Malformed (Progress × List Bytes)
  | 0, _, node, _ => .error ⟨node.line - 1, "anchor value contains itself"⟩
  | depth + 1, outer, node, p => do
    let entries := match node with
      | .mapping _ _ entries => entries
      | _ => []
    match repeatedKeys (entries.map Prod.fst) with
    | complaint :: more => return (p.complain (complaint :: more), outer.getD [])
    | [] =>
      let ordinary := entries.filter fun entry => !isMergeKey entry.1
      let (p, seen) ← setEntries t ordinary ⟨outer, []⟩ p
      let names := seen.outer.getD (textKeys t (entries.map Prod.fst))
      match entries.find? fun entry => isMergeKey entry.1 with
      | none => return (p, names)
      | some (_, merged) =>
        (← mergedMappings t merged).foldlM
          (fun (p, names) mapping => setMapping t depth (some names) mapping p) (p, names)

def ofTree (t : Tree) (depth : Nat) : Except Malformed Progress := do
  match t.root with
  | .mapping _ _ _ => return (← setMapping t depth none t.root ⟨default, []⟩).1
  | root =>
    match ← decode ⟨typeName, typeName⟩ (fun _ _ => (none : Option Unit)) root with
    | .wrong complaints => return ⟨default, complaints⟩
    | _ => return ⟨default, []⟩

def load (content : Bytes) : Except LoadError Settings :=
  let progress := do
    match ← Tree.read? content with
    | some tree => ofTree tree (content.length + 2)
    | none => return ⟨default, []⟩
  match progress with
  | .error m => .error (.malformed m)
  | .ok ⟨settings, []⟩ =>
    match settings.validate with
    | .ok _ => .ok settings
    | .error message => .error (.invalid message)
  | .ok ⟨_, complaints⟩ => .error (.misfits complaints)

end Settings

end LineBasic
