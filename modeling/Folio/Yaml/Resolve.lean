import Folio.Yaml.Node
import Folio.Value
import Folio.Decimal.Written

/-!
# From nodes to values

A plain scalar is read as null, a boolean, an integer or a number if it is written like one, and is a text
otherwise. Names of entries become texts; a local tag makes a map of one entry, named by the tag. Why a text is refused
is left out.
-/

namespace Folio.Yaml

open Folio.Text

/-- The texts of null. -/
def isNullText (s : List Char) : Bool :=
  s.isEmpty || s = ['~'] || s = "null".toList || s = "Null".toList || s = "NULL".toList

def bool? (s : List Char) : Option Bool :=
  if s = "true".toList || s = "True".toList || s = "TRUE".toList then some true
  else if s = "false".toList || s = "False".toList || s = "FALSE".toList then some false
  else none

/-- The number that digits of a base write, if they are digits of that base. -/
def digits? (base : Nat) (ds : List Char) : Option Nat :=
  if !ds.isEmpty && ds.all (fun d => isHexDigit d && hexValue d < base) then
    some (ds.foldl (fun n d => n * base + hexValue d) 0)
  else none

/-- A sign and what follows it. -/
def splitSign : List Char → Bool × List Char
  | '+' :: r => (false, r)
  | '-' :: r => (true, r)
  | s => (false, s)

/-- Several digits with a zero in front are a text. -/
def isZeroPadded (s : List Char) : Bool :=
  match (splitSign s).2 with
  | '0' :: r@(_ :: _) => r.all Char.isDigit
  | _ => false

/-- An integer: decimal, or with `0x`, `0o`, `0b` in front. -/
def integer? (s : List Char) : Option Int :=
  let (negative, r) := splitSign s
  let magnitude : Option Nat :=
    match r with
    | '0' :: 'x' :: ds => digits? 16 ds
    | '0' :: 'o' :: ds => digits? 8 ds
    | '0' :: 'b' :: ds => digits? 2 ds
    | ds => if isZeroPadded s then none else digits? 10 ds
  magnitude.map fun n => if negative then -(n : Int) else n

/-- The decimal `digits · 10^exponent` as the nearest number; beyond the range of numbers it is infinite or 0. -/
def nearest (digits : Nat) (exponent : Int) : Float :=
  if digits = 0 then 0
  else
    let size : Int := (Nat.toDigits 10 digits).length + exponent
    if 400 < size then 1.0 / 0.0
    else if size < -400 then 0
    else if exponent < 0 then Float.ofScientific digits true exponent.natAbs
    else Float.ofScientific digits false exponent.natAbs

/-- A number: digits with a point among, before or behind them, and an optional exponent. -/
def decimal? (s : List Char) : Option Float :=
  let (negative, r) := splitSign s
  let whole := r.takeWhile Char.isDigit
  let r := r.dropWhile Char.isDigit
  let (fraction, r) := match r with
    | '.' :: r => (r.takeWhile Char.isDigit, r.dropWhile Char.isDigit)
    | r => ([], r)
  if whole.isEmpty && fraction.isEmpty then none
  else
    let exponent : Option Int :=
      match r with
      | [] => some 0
      | e :: r =>
        if e = 'e' || e = 'E' then
          let (minus, ds) := splitSign r
          (digits? 10 ds).map fun n => if minus then -(n : Int) else n
        else none
    exponent.map fun e =>
      let x := nearest ((digits? 10 (whole ++ fraction)).getD 0) (e - fraction.length)
      if negative then -x else x

def infinities : List (List Char) := [".inf".toList, ".Inf".toList, ".INF".toList]

/-- A number, or one of the words for infinity and for no number. -/
def float? (s : List Char) : Option Float :=
  let unsigned := match s with
    | '+' :: r => r
    | s => s
  if infinities.contains unsigned then some (1.0 / 0.0)
  else if infinities.any (fun i => s = '-' :: i) then some (-1.0 / 0.0)
  else if [".nan".toList, ".NaN".toList, ".NAN".toList].contains s then some (0.0 / 0.0)
  else if unsigned != s && (unsigned.head? = some '+' || unsigned.head? = some '-') then none
  else (decimal? unsigned).filter Float.isFinite

/-- Integers that a value can hold. Larger ones up to 128 bits are refused, still larger ones are read as
numbers. -/
def fits (n : Int) : Bool := Int64.minValue.toInt ≤ n && n < UInt64.size

def fitsDouble (n : Int) : Bool := -(Nat.pow 2 127 : Nat) ≤ n && n < (Nat.pow 2 128 : Nat)

/-- The value of a plain scalar. -/
def plainValue? (s : List Char) : Option Value :=
  let otherwise : Value :=
    if isZeroPadded s then .text (String.ofList s)
    else
      match float? s with
      | some x => .float x
      | none => .text (String.ofList s)
  if isNullText s then some .null
  else
    match bool? s with
    | some b => some (.bool b)
    | none =>
      match integer? s with
      | some n => if fits n then some (.int n) else if fitsDouble n then none else some otherwise
      | none => some otherwise

/-- The tags of the standard scalar types. -/
def standard (name : String) : List Char := ("tag:yaml.org,2002:" ++ name).toList

/-- The value of a scalar under a tag of a standard type. -/
def standardValue? (tag text : List Char) : Option Value :=
  if tag = standard "bool" then (bool? text).map .bool
  else if tag = standard "int" then
    (integer? text).bind fun n => if fits n then some (.int n) else none
  else if tag = standard "float" then (float? text).map .float
  else if tag = standard "null" then if isNullText text && !text.isEmpty then some .null else none
  else some (.text (String.ofList text))

/-- A name of an entry: the kind of scalar that it is, and its text. Two names clash if both agree. -/
def nameOf? : Value → Option (Nat × String)
  | .bool b => some (0, if b then "true" else "false")
  | .int n => some (1, toString n)
  | .float x => if x.isFinite then some (2, Decimal.written x) else none
  | .text s => some (3, s)
  | _ => none

/-- A number that is infinite or none is kept as null. -/
def kept : Value → Value
  | .float x => if x.isFinite then .float x else .null
  | v => v

/-- A tag that is kept with its value: those that start with an exclamation mark and have a name behind it. -/
def localTag? : List Char → Option (List Char)
  | '!' :: r => some ('!' :: r)
  | _ => none

mutual

/-- The value of a node, at most `depth` collections deep. -/
def valueOf? (depth : Nat) (tag : Option (List Char)) : Node → Option Value
  | .scalar text plain =>
    match tag with
    | some t => standardValue? t text
    | none => if plain then plainValue? text else some (.text (String.ofList text))
  | .sequence items =>
    match depth with
    | 0 => none
    | depth + 1 => (valuesOf? depth items).map .list
  | .mapping entries =>
    match depth with
    | 0 => none
    | depth + 1 =>
      (entriesOf? depth [] entries).map fun es => .map (es.foldl (fun m e => Value.insert e.1.2 e.2 m) [])
  | .tagged ['!'] _ => none
  | .tagged t node =>
    match localTag? t with
    | some t =>
      match depth with
      | 0 => none
      | depth + 1 => (valueOf? depth none node).map fun v => .map [(String.ofList t, kept v)]
    | none => valueOf? depth (some t) node
  | .alias node => valueOf? depth tag node

def valuesOf? (depth : Nat) : List Node → Option (List Value)
  | [] => some []
  | n :: ns => do
    let v ← valueOf? depth none n
    let vs ← valuesOf? depth ns
    some (kept v :: vs)

/-- The entries of a mapping; a name may be given only once. -/
def entriesOf? (depth : Nat) (acc : List ((Nat × String) × Value)) :
    List (Node × Node) → Option (List ((Nat × String) × Value))
  | [] => some acc.reverse
  | (k, v) :: es => do
    let name ← (valueOf? depth none k).bind nameOf?
    let value ← valueOf? depth none v
    if (acc.map (·.1)).contains name then none
    else entriesOf? depth ((name, kept value) :: acc) es

end

/-- The value of a YAML text that holds one document, whose aliases do not repeat too much. -/
def read? (s : String) : Option Value :=
  (((Node.ofText? s.toList).filter Node.isBounded).bind (valueOf? 128 none)).map kept

end Folio.Yaml
