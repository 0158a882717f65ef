import Folio.Yaml.Lexer

/-!
# From tokens to the node of a document

A node is a scalar, a sequence or a mapping, possibly with a tag. An alias holds the node that it names when the tokens
are read, so it needs an anchor before it.
-/

namespace Folio.Yaml

/-- A node of a document. -/
inductive Node where
  | scalar (text : List Char) (plain : Bool)
  | sequence (items : List Node)
  | mapping (entries : List (Node × Node))
  | tagged (tag : List Char) (node : Node)
  | alias (node : Node)
deriving Inhabited, Repr

namespace Node

/-- What an absent node stands for. -/
def empty : Node := .scalar [] true

mutual

/-- The number of scalars, of aliases, and of starts and ends of collections that a node is written with. -/
def events : Node → Nat
  | .scalar .. | .alias _ => 1
  | .sequence items => 2 + eventsAll items
  | .mapping entries => 2 + eventsEntries entries
  | .tagged _ node => events node

def eventsAll : List Node → Nat
  | [] => 0
  | n :: ns => events n + eventsAll ns

def eventsEntries : List (Node × Node) → Nat
  | [] => 0
  | (k, v) :: es => events k + events v + eventsEntries es

end

mutual

/-- What is left of a number of jumps once all aliases of a node have been followed, if it is enough for them. -/
def follow? (jumps : Nat) : Node → Option Nat
  | .scalar .. => some jumps
  | .sequence items => followAll? jumps items
  | .mapping entries => followEntries? jumps entries
  | .tagged _ node => follow? jumps node
  | .alias node =>
    match jumps with
    | 0 => none
    | jumps + 1 => follow? jumps node

def followAll? (jumps : Nat) : List Node → Option Nat
  | [] => some jumps
  | n :: ns => (follow? jumps n).bind fun jumps => followAll? jumps ns

def followEntries? (jumps : Nat) : List (Node × Node) → Option Nat
  | [] => some jumps
  | (k, v) :: es => do
    let jumps ← follow? jumps k
    let jumps ← follow? jumps v
    followEntries? jumps es

end

/-- Aliases may be followed so many times for each event of a document. -/
def maxRepetition : Nat := 100

/-- Can all aliases of a document be followed? -/
def isBounded (n : Node) : Bool := (follow? (maxRepetition * events n) n).isSome

/-- The anchors met so far and the handles that a directive declared. -/
structure Env where
  anchors : List (List Char × Node) := []
  handles : List (List Char × List Char) := []

/-- A tag with its handle replaced. -/
def Env.tag? (env : Env) (handle suffix : List Char) : Option (List Char) :=
  if handle.isEmpty then some suffix
  else
    match env.handles.lookup handle with
    | some t => some (t ++ suffix)
    | none =>
      if handle = ['!'] then some ('!' :: suffix)
      else if handle = ['!', '!'] then some ("tag:yaml.org,2002:".toList ++ suffix)
      else none

/-- A node under its tag. A lone exclamation mark says nothing about a scalar that is written out. -/
def withTag (tag : Option (List Char)) (n : Node) : Node :=
  match tag, n with
  | some ['!'], .scalar s plain => if plain && s.isEmpty then .tagged ['!'] n else n
  | some t, n => .tagged t n
  | none, n => n

/-- The properties in front of a node: an anchor and a tag, in either order, each at most once. -/
def readProperties (env : Env) (anchor tag : Option (List Char)) :
    List Token → Option (Option (List Char) × Option (List Char) × List Token)
  | .anchor a :: ts => if anchor.isNone then readProperties env (some a) tag ts else none
  | .tag h s :: ts =>
    if tag.isNone then (env.tag? h s).bind fun t => readProperties env anchor (some t) ts else none
  | ts => some (anchor, tag, ts)

/-- Names a node. -/
def Env.define (env : Env) (anchor : Option (List Char)) (n : Node) : Env :=
  match anchor with
  | some a => { env with anchors := (a, n) :: env.anchors }
  | none => env

mutual

/-- Reads a node. `block` says that a block collection may start here, `flat` that a sequence may start without
being indented. -/
def read (env : Env) (block flat : Bool) (ts : List Token) : Nat → Option (Node × Env × List Token)
  | 0 => none
  | fuel + 1 =>
    match ts with
    | .alias a :: ts => (env.anchors.lookup a).map fun n => (.alias n, env, ts)
    | _ => do
      let (anchor, tag, ts) ← readProperties env none none ts
      let (n, env, ts) ←
        match ts with
        | .blockEntry :: _ =>
          if flat then (readFlat env [] ts fuel).map fun (ns, env, ts) => (Node.sequence ns, env, ts)
          else if anchor.isSome || tag.isSome then some (empty, env, ts)
          else none
        | .scalar s p :: ts => some (Node.scalar s p, env, ts)
        | .flowSequenceStart :: ts =>
          (readFlowItems env [] true ts fuel).map fun (ns, env, ts) => (Node.sequence ns, env, ts)
        | .flowMappingStart :: ts =>
          (readFlowEntries env [] true ts fuel).map fun (es, env, ts) => (Node.mapping es, env, ts)
        | .blockSequenceStart :: ts' =>
          if block then (readItems env [] ts' fuel).map fun (ns, env, ts) => (Node.sequence ns, env, ts)
          else if anchor.isSome || tag.isSome then some (empty, env, ts)
          else none
        | .blockMappingStart :: ts' =>
          if block then (readEntries env [] ts' fuel).map fun (es, env, ts) => (Node.mapping es, env, ts)
          else if anchor.isSome || tag.isSome then some (empty, env, ts)
          else none
        | _ => if anchor.isSome || tag.isSome then some (empty, env, ts) else none
      let n := withTag tag n
      some (n, env.define anchor n, ts)

/-- The items of a sequence that is not indented: it ends at the first token that is no item. -/
def readFlat (env : Env) (acc : List Node) (ts : List Token) :
    Nat → Option (List Node × Env × List Token)
  | 0 => none
  | fuel + 1 =>
    match ts with
    | .blockEntry :: ts =>
      match ts with
      | .blockEntry :: _ | .key :: _ | .value :: _ | .blockEnd :: _ => readFlat env (empty :: acc) ts fuel
      | _ => (read env true false ts fuel).bind fun (n, env, ts) => readFlat env (n :: acc) ts fuel
    | _ => some (acc.reverse, env, ts)

/-- The items of a block sequence up to its end. -/
def readItems (env : Env) (acc : List Node) (ts : List Token) :
    Nat → Option (List Node × Env × List Token)
  | 0 => none
  | fuel + 1 =>
    match ts with
    | .blockEntry :: ts =>
      match ts with
      | .blockEntry :: _ | .blockEnd :: _ => readItems env (empty :: acc) ts fuel
      | _ => (read env true false ts fuel).bind fun (n, env, ts) => readItems env (n :: acc) ts fuel
    | .blockEnd :: ts => some (acc.reverse, env, ts)
    | _ => none

/-- The entries of a block mapping up to its end. -/
def readEntries (env : Env) (acc : List (Node × Node)) (ts : List Token) :
    Nat → Option (List (Node × Node) × Env × List Token)
  | 0 => none
  | fuel + 1 =>
    match ts with
    | .key :: ts =>
      (match ts with
        | .key :: _ | .value :: _ | .blockEnd :: _ => some (empty, env, ts)
        | _ => read env true true ts fuel).bind fun (k, env, ts) =>
      (match ts with
        | .value :: ts =>
          match ts with
          | .key :: _ | .value :: _ | .blockEnd :: _ => some (empty, env, ts)
          | _ => read env true true ts fuel
        | _ => some (empty, env, ts)).bind fun (v, env, ts) => readEntries env ((k, v) :: acc) ts fuel
    | .blockEnd :: ts => some (acc.reverse, env, ts)
    | _ => none

/-- The items of a flow sequence up to its bracket; an item with a key is a mapping of one entry. -/
def readFlowItems (env : Env) (acc : List Node) (isFirst : Bool) (ts : List Token) :
    Nat → Option (List Node × Env × List Token)
  | 0 => none
  | fuel + 1 =>
    match ts with
    | .flowSequenceEnd :: ts => some (acc.reverse, env, ts)
    | _ =>
      (if isFirst then some ts
        else match ts with
          | .flowEntry :: ts => some ts
          | _ => none).bind fun ts =>
      match ts with
      | .flowSequenceEnd :: ts => some (acc.reverse, env, ts)
      | .key :: ts =>
        (match ts with
          | .value :: _ | .flowEntry :: _ | .flowSequenceEnd :: _ => some (empty, env, ts)
          | _ => read env false false ts fuel).bind fun (k, env, ts) =>
        (match ts with
          | .value :: ts =>
            match ts with
            | .flowEntry :: _ | .flowSequenceEnd :: _ => some (empty, env, ts)
            | _ => read env false false ts fuel
          | _ => some (empty, env, ts)).bind fun (v, env, ts) =>
        readFlowItems env (.mapping [(k, v)] :: acc) false ts fuel
      | _ => (read env false false ts fuel).bind fun (n, env, ts) => readFlowItems env (n :: acc) false ts fuel

/-- The entries of a flow mapping up to its brace; an entry without a colon has no value. -/
def readFlowEntries (env : Env) (acc : List (Node × Node)) (isFirst : Bool) (ts : List Token) :
    Nat → Option (List (Node × Node) × Env × List Token)
  | 0 => none
  | fuel + 1 =>
    match ts with
    | .flowMappingEnd :: ts => some (acc.reverse, env, ts)
    | _ =>
      (if isFirst then some ts
        else match ts with
          | .flowEntry :: ts => some ts
          | _ => none).bind fun ts =>
      match ts with
      | .flowMappingEnd :: ts => some (acc.reverse, env, ts)
      | .key :: ts =>
        (match ts with
          | .value :: _ | .flowEntry :: _ | .flowMappingEnd :: _ => some (empty, env, ts)
          | _ => read env false false ts fuel).bind fun (k, env, ts) =>
        (match ts with
          | .value :: ts =>
            match ts with
            | .flowEntry :: _ | .flowMappingEnd :: _ => some (empty, env, ts)
            | _ => read env false false ts fuel
          | _ => some (empty, env, ts)).bind fun (v, env, ts) =>
        readFlowEntries env ((k, v) :: acc) false ts fuel
      | _ =>
        (read env false false ts fuel).bind fun (n, env, ts) =>
        readFlowEntries env ((n, empty) :: acc) false ts fuel

end

/-- Passes directives, of which each may be given once. -/
def readDirectives (env : Env) (version : Bool) : List Token → Option (Env × Bool × List Token)
  | .versionDirective major minor :: ts =>
    if version || major != 1 || (minor != 1 && minor != 2) then none
    else (readDirectives env true ts).map fun (env, _, ts) => (env, true, ts)
  | .tagDirective h t :: ts =>
    if (env.handles.lookup h).isSome then none
    else (readDirectives { env with handles := (h, t) :: env.handles } version ts).map
      fun (env, _, ts) => (env, true, ts)
  | ts => some (env, false, ts)

/-- The node of a text that holds one document. A text without any node stands for the empty one. -/
def ofTokens? (ts : List Token) : Option Node := do
  let fuel := 2 * ts.length + 2
  let (env, declared, ts) ← readDirectives {} false ts
  let (isExplicit, ts) ←
    match ts with
    | .documentStart :: ts => some (true, ts)
    | _ => if declared then none else some (false, ts)
  let (n, ts) ←
    match ts with
    | .streamEnd :: _ => some (empty, ts)
    | .documentEnd :: _ | .documentStart :: _ | .versionDirective .. :: _ | .tagDirective .. :: _ =>
      if isExplicit then some (empty, ts) else none
    | _ => (read env true false ts fuel).map fun (n, _, ts) => (n, ts)
  match ts.dropWhile (· = .documentEnd) with
  | [.streamEnd] => some n
  | _ => none

/-- The node of a YAML text. -/
def ofText? (s : List Char) : Option Node := (tokens? s).bind ofTokens?

end Node

end Folio.Yaml
