import RuneMachine.Number.Shortest
import RuneMachine.Text.Quoted

namespace RuneMachine

inductive Value where
  | none
  | bool (b : Bool)
  | int (n : Int)
  | float (x : Binary64)
  | text (t : Text)
  | bytes (b : Bytes)
  | list (items : List Value)
  | record (fields : List (Text × Value))
  deriving Repr, Inhabited

namespace Value

def typeName : Value → Text
  | .none => Text.ofString "NoneType"
  | .bool _ => Text.ofString "bool"
  | .int _ => Text.ofString "int"
  | .float _ => Text.ofString "float"
  | .text _ => Text.ofString "str"
  | .bytes _ => Text.ofString "bytes"
  | .list _ => Text.ofString "list"
  | .record _ => Text.ofString "dict"

def isVoid : Value → Bool
  | .none => true
  | .bool b => !b
  | .int n => n == 0
  | .float x => x.isZero
  | .text t => t.isEmpty
  | .bytes b => b.isEmpty
  | .list items => items.isEmpty
  | .record fields => fields.isEmpty

def codePoint? : Value → Option CodePoint
  | .text [c] => some c
  | _ => Option.none

def commaSeparated : List Text → Text
  | [] => []
  | [t] => t
  | t :: ts => t ++ Text.ofString ", " ++ commaSeparated ts

mutual

def shown : Value → Text
  | .none => Text.ofString "None"
  | .bool true => Text.ofString "True"
  | .bool false => Text.ofString "False"
  | .int n => Text.ofInt n
  | .float x => x.shown
  | .text t => t.quoted
  | .bytes b => Bytes.quoted b
  | .list items => 0x5b :: commaSeparated (shownAll items) ++ [0x5d]
  | .record fields => 0x7b :: commaSeparated (shownFields fields) ++ [0x7d]

def shownAll : List Value → List Text
  | [] => []
  | v :: vs => shown v :: shownAll vs

def shownFields : List (Text × Value) → List Text
  | [] => []
  | (key, v) :: fields => (key.quoted ++ Text.ofString ": " ++ shown v) :: shownFields fields

end

def dyadic? : Value → Option (Int × Int)
  | .bool b => some (if b then 1 else 0, 0)
  | .int n => some (n, 0)
  | .float (.finite negative mantissa exponent) =>
    some (if negative then -Int.ofNat mantissa else Int.ofNat mantissa, exponent)
  | _ => Option.none

def sameNumber : Int × Int → Int × Int → Bool
  | (m, e), (n, f) =>
    m * Int.ofNat (Binary64.powerOfTwo (e - f)) == n * Int.ofNat (Binary64.powerOfTwo (f - e))

mutual

def same : Value → Value → Bool
  | .none, .none => true
  | .text s, .text t => s == t
  | .bytes a, .bytes b => a == b
  | .list vs, .list ws => sameAll vs ws
  | .record fs, .record gs => fs.length == gs.length && within fs gs
  | .float (.infinite a), .float (.infinite b) => a == b
  | v, w =>
    match dyadic? v, dyadic? w with
    | some m, some n => sameNumber m n
    | _, _ => false

def sameAll : List Value → List Value → Bool
  | [], [] => true
  | v :: vs, w :: ws => same v w && sameAll vs ws
  | _, _ => false

def within : List (Text × Value) → List (Text × Value) → Bool
  | [], _ => true
  | (key, v) :: fields, gs =>
    (match gs.lookup key with
      | some w => same v w
      | Option.none => false) && within fields gs

end

end Value

end RuneMachine
