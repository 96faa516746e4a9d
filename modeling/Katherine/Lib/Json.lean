import Katherine.Lib.Text
import Mathlib.Data.List.Sort

/-!
# Python values and their JSON

`PyVal` is what a caller can hand to a function that expects "a JSON document":
the JSON shapes themselves, tuples (written as lists), non-finite floats (which
`json.dumps` writes unless told otherwise), dictionary keys that are not strings,
and `obj` for everything the encoder does not know.

* `dumps` is `json.dumps(..., ensure_ascii=False)`: it fails, or writes a text.
* `loads` is `json.loads`, on the texts `dumps` writes.
* `PyVal.canon` sorts every dictionary by key, which is what `sort_keys=True`
  writes. Two documents with the same `canon` are the same Python value.

A float is identified with the text `repr` prints for it. That is faithful
because `repr` is injective on finite floats, and it is the only thing a
serialiser can see of one. Nesting is unbounded here: the interpreter's recursion
limit is not modelled.
-/

namespace Py

/-! ## Floats -/

/-- Drop a leading sign. -/
def dropMinus : PyStr → PyStr
  | [] => []
  | c :: s => if c = cp '-' then s else c :: s

/-- The exponent of a float literal: nothing, or `e`, a sign, and digits. -/
def isExponent : PyStr → Bool
  | [] => true
  | e :: s :: ds => decide (e = cp 'e') && (decide (s = cp '+') || decide (s = cp '-'))
      && !ds.isEmpty && ds.all isDigit
  | _ => false

/-- What may follow the integer part: a fraction, an exponent, or both, but not nothing. -/
def isFraction : PyStr → Bool
  | [] => false
  | c :: s =>
      if c = cp '.' then
        !(s.takeWhile isDigit).isEmpty && isExponent (s.dropWhile isDigit)
      else isExponent (c :: s)

/-- The shape of `repr(x)` for a finite float: at most 24 characters, as for any double. -/
def isFloatRepr (s : PyStr) : Bool :=
  !((dropMinus s).takeWhile isDigit).isEmpty && isFraction ((dropMinus s).dropWhile isDigit)
    && decide (s.length ≤ 24)

/-- A finite float, by the text it is written as. -/
structure FiniteFloat where
  text : PyStr
  ok : isFloatRepr text = true
deriving DecidableEq

/-- A Python float. -/
inductive PyFloat
  | nan
  | inf (neg : Bool)
  | fin (f : FiniteFloat)
deriving DecidableEq

/-- The digits after the decimal point, if there is one. -/
def fractionDigits (s : PyStr) : PyStr :=
  match (dropMinus s).dropWhile isDigit with
  | [] => []
  | c :: r => if c = cp '.' then r.takeWhile isDigit else []

/-- The decimal exponent, if there is one. -/
def exponentOf (s : PyStr) : Int :=
  match s.dropWhile (· ≠ cp 'e') with
  | _ :: sign :: ds => if sign = cp '-' then - (natOfText ds : Int) else natOfText ds
  | _ => 0

/-- Numerator and denominator of the decimal a float is written as. -/
def FiniteFloat.ratio (f : FiniteFloat) : Int × Nat :=
  let fp := fractionDigits f.text
  let m : Int := natOfText ((dropMinus f.text).takeWhile isDigit ++ fp)
  let m := if f.text.head? = some (cp '-') then -m else m
  let e := exponentOf f.text - fp.length
  if 0 ≤ e then (m * 10 ^ e.toNat, 1) else (m, 10 ^ (-e).toNat)

/-- `n / d < x`. -/
def FiniteFloat.gtRatio (x : FiniteFloat) (n : Int) (d : Nat) : Bool :=
  decide (n * x.ratio.2 < x.ratio.1 * d)

/-- `x < n / d`. -/
def FiniteFloat.ltRatio (x : FiniteFloat) (n : Int) (d : Nat) : Bool :=
  decide (x.ratio.1 * d < n * x.ratio.2)

/-! ## Values -/

/-- A dictionary key: a string, a scalar the encoder turns into one, or anything else. -/
inductive PyKey
  | str (s : PyStr)
  /-- An `int`, `float` or `bool` key, by the text it is written as. -/
  | num (text : PyStr)
  | none
  | other
deriving DecidableEq

inductive PyVal
  | none
  | bool (b : Bool)
  | int (i : Int)
  | float (f : PyFloat)
  | str (s : PyStr)
  | list (xs : List PyVal)
  | tuple (xs : List PyVal)
  | dict (kvs : List (PyKey × PyVal))
  /-- Any other object: a `set`, `bytes`, a class instance. -/
  | obj

/-- `d.get(k)` for a string key. -/
def dictGet (kvs : List (PyKey × PyVal)) (k : PyStr) : Option PyVal :=
  (kvs.find? fun p => p.1 = .str k).map (·.2)

/-- `isinstance(v, Mapping)`; the items of the mapping. -/
def PyVal.items? : PyVal → Option (List (PyKey × PyVal))
  | .dict kvs => some kvs
  | _ => Option.none

/-- `isinstance(v, str)`; the text. -/
def PyVal.str? : PyVal → Option PyStr
  | .str s => some s
  | _ => Option.none

/-! ## Writing -/

/-- `"\\u{0:04x}"` for a code point below 32. -/
def hexDigit (d : Nat) : CodePoint :=
  ⟨if d % 16 < 10 then 48 + d % 16 else 87 + d % 16, by split <;> omega⟩

/-- One code point inside a JSON string, with `ensure_ascii=False`. -/
def escapeChar (c : CodePoint) : PyStr :=
  if c = cp '"' then [cp '\\', cp '"']
  else if c = cp '\\' then [cp '\\', cp '\\']
  else if c.val = 8 then [cp '\\', cp 'b']
  else if c.val = 9 then [cp '\\', cp 't']
  else if c.val = 10 then [cp '\\', cp 'n']
  else if c.val = 12 then [cp '\\', cp 'f']
  else if c.val = 13 then [cp '\\', cp 'r']
  else if c.val < 32 then
    [cp '\\', cp 'u', cp '0', cp '0', hexDigit (c.val / 16), hexDigit c.val]
  else [c]

def escape (s : PyStr) : PyStr := s.flatMap escapeChar

def quote (s : PyStr) : PyStr := cp '"' :: (escape s ++ [cp '"'])

def floatText : PyFloat → PyStr
  | .nan => py "NaN"
  | .inf false => py "Infinity"
  | .inf true => py "-Infinity"
  | .fin f => f.text

/-- The string a key is written as. -/
def keyText : PyKey → PyStr
  | .str s => s
  | .num t => t
  | .none => py "null"
  | .other => []

section Render

/- What follows each `,` and `:`: nothing with `separators=(",", ":")`, a space by default. -/
variable (gap : PyStr)

mutual
/-- The JSON text of a value, dictionaries in the order they are listed. -/
def render : PyVal → PyStr
  | .none => py "null"
  | .bool true => py "true"
  | .bool false => py "false"
  | .int i => intText i
  | .float f => floatText f
  | .str s => quote s
  | .list [] => [cp '[', cp ']']
  | .list (x :: xs) => cp '[' :: (render x ++ renderElems xs)
  | .tuple [] => [cp '[', cp ']']
  | .tuple (x :: xs) => cp '[' :: (render x ++ renderElems xs)
  | .dict [] => [cp '{', cp '}']
  | .dict ((k, v) :: kvs) =>
      cp '{' :: (quote (keyText k) ++ (cp ':' :: (gap ++ (render v ++ renderItems kvs))))
  | .obj => []
/-- The elements after the first, and the closing bracket. -/
def renderElems : List PyVal → PyStr
  | [] => [cp ']']
  | x :: xs => cp ',' :: (gap ++ (render x ++ renderElems xs))
/-- The items after the first, and the closing brace. -/
def renderItems : List (PyKey × PyVal) → PyStr
  | [] => [cp '}']
  | (k, v) :: kvs =>
      cp ',' :: (gap ++ (quote (keyText k) ++ (cp ':' :: (gap ++ (render v ++ renderItems kvs)))))
end

end Render

def keyLe : PyKey × PyVal → PyKey × PyVal → Prop
  | (.str a, _), (.str b, _) => a ≤ b
  | _, _ => True

instance : DecidableRel keyLe := fun a b => by
  rcases a with ⟨_ | _ | _ | _, _⟩ <;> rcases b with ⟨_ | _ | _ | _, _⟩ <;>
    simp only [keyLe] <;> infer_instance

def PyKey.isStr : PyKey → Bool
  | .str _ => true
  | _ => false

def PyKey.isNum : PyKey → Bool
  | .num _ => true
  | _ => false

/-- Items in key order. Numeric keys are listed in order to begin with. -/
def sortItems (kvs : List (PyKey × PyVal)) : List (PyKey × PyVal) :=
  if kvs.all (·.1.isStr) then kvs.insertionSort keyLe else kvs

mutual
/-- The same value with every dictionary in key order. -/
def PyVal.canon : PyVal → PyVal
  | .none => .none
  | .bool b => .bool b
  | .int i => .int i
  | .float f => .float f
  | .str s => .str s
  | .list xs => .list (canonElems xs)
  | .tuple xs => .tuple (canonElems xs)
  | .dict kvs => .dict (sortItems (canonItems kvs))
  | .obj => .obj
def canonElems : List PyVal → List PyVal
  | [] => []
  | x :: xs => x.canon :: canonElems xs
def canonItems : List (PyKey × PyVal) → List (PyKey × PyVal)
  | [] => []
  | (k, v) :: kvs => (k, v.canon) :: canonItems kvs
end

/-- `sort_keys` needs keys that compare with one another. -/
def sortable (kvs : List (PyKey × PyVal)) : Bool :=
  kvs.all (·.1.isStr) || kvs.all (·.1.isNum) || decide (kvs.length ≤ 1)

def PyFloat.isFinite : PyFloat → Bool
  | .fin _ => true
  | _ => false

/-- `json.dumps` options that decide whether it raises. -/
structure DumpOpts where
  sortKeys : Bool
  allowNan : Bool

mutual
/-- `json.dumps` returns. Integers of more than 4300 digits have no `str`. -/
def serialisable (o : DumpOpts) : PyVal → Bool
  | .none => true
  | .bool _ => true
  | .int i => decide (i.natAbs < intTextLimit)
  | .float f => o.allowNan || f.isFinite
  | .str _ => true
  | .list xs => serialisableElems o xs
  | .tuple xs => serialisableElems o xs
  | .dict kvs => (!o.sortKeys || sortable kvs) && serialisableItems o kvs
  | .obj => false
def serialisableElems (o : DumpOpts) : List PyVal → Bool
  | [] => true
  | x :: xs => serialisable o x && serialisableElems o xs
def serialisableItems (o : DumpOpts) : List (PyKey × PyVal) → Bool
  | [] => true
  | (k, v) :: kvs => decide (k ≠ .other) && serialisable o v && serialisableItems o kvs
end

/-- `json.dumps(v, sort_keys=True, separators=(",", ":"))`; `none` is the raise. -/
def dumpsCompact (allowNan : Bool) (v : PyVal) : Option PyStr :=
  if serialisable ⟨true, allowNan⟩ v then some (render [] v.canon) else Option.none

/-- `json.dumps(v)` with the default separators and key order. -/
def dumpsDefault (v : PyVal) : Option PyStr :=
  if serialisable ⟨false, true⟩ v then some (render [cp ' '] v) else Option.none

/-! ## Reading -/

/-- JSON whitespace. -/
def isWs (c : CodePoint) : Bool := decide (c.val ∈ [32, 9, 10, 13])

def skipWs (s : PyStr) : PyStr := s.dropWhile isWs

def hexVal (c : CodePoint) : Option Nat :=
  if 48 ≤ c.val ∧ c.val ≤ 57 then some (c.val - 48)
  else if 97 ≤ c.val ∧ c.val ≤ 102 then some (c.val - 87)
  else if 65 ≤ c.val ∧ c.val ≤ 70 then some (c.val - 55)
  else Option.none

/-- `\uXXXX`, read as one code point. -/
def readHex4 (a b c d : CodePoint) : Option CodePoint := do
  let a ← hexVal a
  let b ← hexVal b
  let c ← hexVal c
  let d ← hexVal d
  let n := 4096 * a + 256 * b + 16 * c + d
  if h : n < 0x110000 then some ⟨n, h⟩ else Option.none

/-- The code point a two-character escape stands for. -/
def readEscape (c : CodePoint) : Option CodePoint :=
  if c = cp '"' ∨ c = cp '\\' ∨ c = cp '/' then some c
  else if c = cp 'b' then some 8
  else if c = cp 'f' then some 12
  else if c = cp 'n' then some 10
  else if c = cp 'r' then some 13
  else if c = cp 't' then some 9
  else Option.none

mutual
/-- The rest of a string literal after its opening quote. -/
def readStr : PyStr → Option (PyStr × PyStr)
  | [] => Option.none
  | c :: s =>
      if c = cp '"' then some ([], s)
      else if c = cp '\\' then readEsc s
      else if c.val < 32 then Option.none
      else (readStr s).map fun p => (c :: p.1, p.2)
/-- The rest of a string literal after a backslash. -/
def readEsc : PyStr → Option (PyStr × PyStr)
  | [] => Option.none
  | e :: s =>
      if e = cp 'u' then
        match s with
        | a :: b :: c :: d :: r =>
            match readHex4 a b c d with
            | some u => (readStr r).map fun p => (u :: p.1, p.2)
            | Option.none => Option.none
        | _ => Option.none
      else
        match readEscape e with
        | some u => (readStr s).map fun p => (u :: p.1, p.2)
        | Option.none => Option.none
end

def isNumChar (c : CodePoint) : Bool :=
  isDigit c || decide (c ∈ [cp '-', cp '+', cp '.', cp 'e', cp 'E'])

/-- An integer literal: no leading zero. -/
def isIntText (s : PyStr) : Bool :=
  !(dropMinus s).isEmpty && (dropMinus s).all isDigit
    && (decide ((dropMinus s).head? ≠ some (cp '0')) || decide ((dropMinus s).length = 1))

def intOfText (s : PyStr) : Int :=
  if s.head? = some (cp '-') then - (natOfText (dropMinus s) : Int) else natOfText s

/-- A number, taken as far as number characters go. -/
def readNum (s : PyStr) : Option (PyVal × PyStr) :=
  let tok := s.takeWhile isNumChar
  let rest := s.dropWhile isNumChar
  if isIntText tok then some (.int (intOfText tok), rest)
  else if h : isFloatRepr tok = true then some (.float (.fin ⟨tok, h⟩), rest)
  else Option.none

/-- A fixed word, read as `v`. -/
def readWord (w : PyStr) (v : PyVal) (s : PyStr) : Option (PyVal × PyStr) :=
  if s.take w.length = w then some (v, s.drop w.length) else Option.none

/-- The value written at a key that is written again later is lost. -/
def dictOfItems : List (PyStr × PyVal) → List (PyKey × PyVal)
  | [] => []
  | (k, v) :: kvs =>
      if kvs.any (·.1 = k) then dictOfItems kvs else (.str k, v) :: dictOfItems kvs

mutual
/-- One value; what is left of the text comes back with it. -/
def readVal : Nat → PyStr → Option (PyVal × PyStr)
  | 0, _ => Option.none
  | _ + 1, [] => Option.none
  | fuel + 1, c :: s =>
      if c = cp '"' then (readStr s).map fun p => (.str p.1, p.2)
      else if c = cp '[' then readList fuel (skipWs s)
      else if c = cp '{' then readDict fuel (skipWs s)
      else if c = cp 'n' then readWord (py "null") .none (c :: s)
      else if c = cp 't' then readWord (py "true") (.bool true) (c :: s)
      else if c = cp 'f' then readWord (py "false") (.bool false) (c :: s)
      else if c = cp 'N' then readWord (py "NaN") (.float .nan) (c :: s)
      else if c = cp 'I' then readWord (py "Infinity") (.float (.inf false)) (c :: s)
      else if c = cp '-' ∧ s.head? = some (cp 'I') then
        readWord (py "-Infinity") (.float (.inf true)) (c :: s)
      else readNum (c :: s)
/-- A list after its opening bracket. -/
def readList : Nat → PyStr → Option (PyVal × PyStr)
  | 0, _ => Option.none
  | fuel + 1, s =>
      if s.head? = some (cp ']') then some (.list [], s.tail)
      else
        match readVal fuel s with
        | some (v, r) => (readElems fuel r).map fun p => (.list (v :: p.1), p.2)
        | Option.none => Option.none
/-- The elements after the first, up to the closing bracket. -/
def readElems : Nat → PyStr → Option (List PyVal × PyStr)
  | 0, _ => Option.none
  | fuel + 1, s =>
      match skipWs s with
      | [] => Option.none
      | c :: r =>
          if c = cp ']' then some ([], r)
          else if c = cp ',' then
            match readVal fuel (skipWs r) with
            | some (v, r') => (readElems fuel r').map fun p => (v :: p.1, p.2)
            | Option.none => Option.none
          else Option.none
/-- A dictionary after its opening brace. -/
def readDict : Nat → PyStr → Option (PyVal × PyStr)
  | 0, _ => Option.none
  | fuel + 1, s =>
      if s.head? = some (cp '}') then some (.dict [], s.tail)
      else
        match readItem fuel s with
        | some (kv, r) =>
            (readItems fuel r).map fun p => (.dict (dictOfItems (kv :: p.1)), p.2)
        | Option.none => Option.none
/-- `"key": value`. -/
def readItem : Nat → PyStr → Option ((PyStr × PyVal) × PyStr)
  | 0, _ => Option.none
  | _ + 1, [] => Option.none
  | fuel + 1, c :: s =>
      if c = cp '"' then
        match readStr s with
        | Option.none => Option.none
        | some (k, r) =>
            match skipWs r with
            | [] => Option.none
            | d :: r' =>
                if d = cp ':' then
                  (readVal fuel (skipWs r')).map fun p => ((k, p.1), p.2)
                else Option.none
      else Option.none
/-- The items after the first, up to the closing brace. -/
def readItems : Nat → PyStr → Option (List (PyStr × PyVal) × PyStr)
  | 0, _ => Option.none
  | fuel + 1, s =>
      match skipWs s with
      | [] => Option.none
      | c :: r =>
          if c = cp '}' then some ([], r)
          else if c = cp ',' then
            match readItem fuel (skipWs r) with
            | some (kv, r') => (readItems fuel r').map fun p => (kv :: p.1, p.2)
            | Option.none => Option.none
          else Option.none
end

/-- `json.loads`; `none` is a `JSONDecodeError`. -/
def loads (s : PyStr) : Option PyVal :=
  match readVal (3 * s.length + 3) (skipWs s) with
  | some (v, r) => if skipWs r = [] then some v else Option.none
  | Option.none => Option.none

mutual
/-- No `NaN` and no infinity anywhere. -/
def PyVal.finite : PyVal → Bool
  | .none => true
  | .bool _ => true
  | .int _ => true
  | .float f => f.isFinite
  | .str _ => true
  | .list xs => finiteElems xs
  | .tuple xs => finiteElems xs
  | .dict kvs => finiteItems kvs
  | .obj => true
def finiteElems : List PyVal → Bool
  | [] => true
  | x :: xs => x.finite && finiteElems xs
def finiteItems : List (PyKey × PyVal) → Bool
  | [] => true
  | (_, v) :: kvs => v.finite && finiteItems kvs
end

/-- SQLite's `json_valid`: strict JSON, so no `NaN` and no `Infinity`. -/
def jsonValid (s : PyStr) : Bool :=
  match loads s with
  | some v => v.finite
  | Option.none => false

end Py
