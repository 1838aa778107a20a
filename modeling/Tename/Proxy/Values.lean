import Mathlib.Data.List.Infix
import Mathlib.Data.Nat.Digits.Defs
import Tename.Sessions.Models

/-!
# What a tool function returns

A proxy tool is any Python function, so it may return any value. A value is given here
by what the proxy looks at: its type, whether it is true, and what `json.dumps` makes
of it with `default=str`, which calls an object's own `__str__`. A container may hold
itself.
-/

namespace Tename

/-- An exception that a value raises: its class and text. -/
structure PyError where
  typeName : String
  message : String
  deriving DecidableEq

inductive PyKey where
  | str (key : String)
  | int (n : Int)
  | float (repr : String)
  | bool (b : Bool)
  | none
  | other (typeName : String)
  deriving DecidableEq

inductive PyValue where
  | none
  | bool (b : Bool)
  | int (n : Int)
  | float (repr : String)
  | str (text : String)
  | list (items : List PyValue)
  | tuple (items : List PyValue)
  | dict (fields : List (PyKey × PyValue))
  /-- A container that the value is a part of. -/
  | enclosing (typeName : String)
  /-- Anything else, with the outcomes of its `__str__` and `__bool__`. -/
  | object (typeName : String) (str : Except PyError String) (truth : Except PyError Bool)

namespace PyValue

/-- `type(value).__name__`. -/
def typeName : PyValue → String
  | .none => "NoneType"
  | .bool _ => "bool"
  | .int _ => "int"
  | .float _ => "float"
  | .str _ => "str"
  | .list _ => "list"
  | .tuple _ => "tuple"
  | .dict _ => "dict"
  | .enclosing typeName => typeName
  | .object typeName .. => typeName

/-- `bool(value)`. A container that holds something is true. -/
def truth : PyValue → Except PyError Bool
  | .none => .ok false
  | .bool b => .ok b
  | .int n => .ok (n ≠ 0)
  | .float repr => .ok (repr ≠ "0.0" && repr ≠ "-0.0")
  | .str text => .ok (text ≠ "")
  | .list items => .ok !items.isEmpty
  | .tuple items => .ok !items.isEmpty
  | .dict fields => .ok !fields.isEmpty
  | .enclosing _ => .ok true
  | .object _ _ truth => truth

/-- `value.get(key)` of a dict. -/
def get? (fields : List (PyKey × PyValue)) (key : String) : Option PyValue :=
  (fields.find? fun field => field.1 = .str key).map Prod.snd

/-- `value.get(key)` of a dict, where it is a string. -/
def text? (fields : List (PyKey × PyValue)) (key : String) : Option String :=
  match get? fields key with
  | some (.str text) => some text
  | _ => Option.none

/-- `bool(value.get(key, False))` of a dict. -/
def flag (fields : List (PyKey × PyValue)) (key : String) : Except PyError Bool :=
  ((get? fields key).map truth).getD (.ok false)

end PyValue

/-- `\u0000` with the digits of a UTF-16 code unit. -/
def escapeUnit (n : Nat) : List Char :=
  let digits := Nat.toDigits 16 n
  '\\' :: 'u' :: (List.replicate (4 - digits.length) '0' ++ digits)

/-- A character of a JSON string, with `ensure_ascii`. -/
def escapeChar (c : Char) : List Char :=
  let n := c.toNat
  if c = '"' then ['\\', '"']
  else if c = '\\' then ['\\', '\\']
  else if c = '\n' then ['\\', 'n']
  else if c = '\r' then ['\\', 'r']
  else if c = '\t' then ['\\', 't']
  else if n = 8 then ['\\', 'b']
  else if n = 12 then ['\\', 'f']
  else if 32 ≤ n ∧ n ≤ 126 then [c]
  else if n < 0x10000 then escapeUnit n
  else
    escapeUnit (0xD800 + (n - 0x10000) / 0x400) ++ escapeUnit (0xDC00 + (n - 0x10000) % 0x400)

/-- A JSON string. -/
def quoteJson (text : String) : String :=
  "\"" ++ .ofList (text.toList.flatMap escapeChar) ++ "\""

/-- The least number of more than 4300 digits. -/
def intLimit : Nat := 10 ^ 4300

/-- `int.__repr__`, which refuses numbers of more than 4300 digits. -/
def intText (n : Int) : Except PyError String :=
  if n.natAbs < intLimit then .ok (toString n)
  else .error ⟨"ValueError", "Exceeds the limit (4300 digits) for integer string conversion; " ++
    "use sys.set_int_max_str_digits() to increase the limit"⟩

/-- A dict key as JSON has it. -/
def PyKey.text : PyKey → Except PyError String
  | .str key => .ok key
  | .int n => intText n
  | .float repr => .ok repr
  | .bool b => .ok (if b then "true" else "false")
  | .none => .ok "null"
  | .other typeName =>
      .error ⟨"TypeError", s!"keys must be str, int, float, bool or None, not {typeName}"⟩

def recursionError : PyError :=
  ⟨"RecursionError", "maximum recursion depth exceeded while encoding a JSON object"⟩

/-- `json.dumps(value, default=str)`, with the interpreter's remaining recursion depth. -/
def PyValue.dumps : Nat → PyValue → Except PyError String
  | _, .none => .ok "null"
  | _, .bool b => .ok (if b then "true" else "false")
  | _, .int n => intText n
  | _, .float repr => .ok repr
  | _, .str text => .ok (quoteJson text)
  | _, .enclosing _ => .error ⟨"ValueError", "Circular reference detected"⟩
  | 0, _ => .error recursionError
  | depth + 1, .list items => do
      let texts ← items.mapM (dumps depth)
      return "[" ++ ", ".intercalate texts ++ "]"
  | depth + 1, .tuple items => do
      let texts ← items.mapM (dumps depth)
      return "[" ++ ", ".intercalate texts ++ "]"
  | depth + 1, .dict fields => do
      let texts ← fields.mapM fun (key, value) => do
        let key ← key.text
        let value ← dumps depth value
        return quoteJson key ++ ": " ++ value
      return "\x7b" ++ ", ".intercalate texts ++ "\x7d"
  | _ + 1, .object _ shown _ => shown.map quoteJson

def PyKey.serialisable : PyKey → Bool
  | .int n => n.natAbs < intLimit
  | .other _ => false
  | _ => true

/-- The value holds no container that it is a part of, no key or number that JSON does not take
and no object whose `__str__` raises, and is not nested too deep. -/
def PyValue.serialisable : Nat → PyValue → Bool
  | _, .int n => n.natAbs < intLimit
  | _, .enclosing _ => false
  | 0, .list _ | 0, .tuple _ | 0, .dict _ | 0, .object .. => false
  | depth + 1, .list items => items.all (serialisable depth)
  | depth + 1, .tuple items => items.all (serialisable depth)
  | depth + 1, .dict fields =>
      fields.all fun (key, value) => key.serialisable && serialisable depth value
  | _ + 1, .object _ shown _ => shown.isOk
  | _, _ => true

section Serialisable

theorem isOk_map {ε α β : Type} (x : Except ε α) (f : α → β) : (x.map f).isOk = x.isOk := by
  cases x <;> rfl

theorem isOk_bind {ε α β : Type} (x : Except ε α) (f : α → β) :
    (x >>= fun a => pure (f a)).isOk = x.isOk := by
  cases x <;> rfl

theorem isOk_mapM {ε α β : Type} (f : α → Except ε β) (items : List α) :
    (items.mapM f).isOk = items.all fun item => (f item).isOk := by
  induction items with
  | nil => rfl
  | cons item items ih =>
      rw [List.mapM_cons, List.all_cons, ← ih]
      cases f item with
      | error e => rfl
      | ok b => exact isOk_bind (items.mapM f) (b :: ·)

theorem intText_isOk (n : Int) : (intText n).isOk = decide (n.natAbs < intLimit) := by
  unfold intText
  split
  · exact (decide_eq_true (by assumption)).symm
  · exact (decide_eq_false (by assumption)).symm

theorem PyKey.text_isOk (key : PyKey) : key.text.isOk = key.serialisable := by
  cases key with
  | int n => exact intText_isOk n
  | _ => rfl

/-- `json.dumps` raises on the other values. -/
theorem PyValue.dumps_isOk (depth : Nat) (value : PyValue) :
    (value.dumps depth).isOk = value.serialisable depth := by
  induction depth generalizing value with
  | zero =>
      cases value with
      | int n =>
          unfold dumps serialisable
          exact intText_isOk n
      | _ => rfl
  | succ depth ih =>
      cases value with
      | int n =>
          unfold dumps serialisable
          exact intText_isOk n
      | list items =>
          unfold dumps serialisable
          rw [isOk_bind, isOk_mapM]
          simp only [ih]
      | tuple items =>
          unfold dumps serialisable
          rw [isOk_bind, isOk_mapM]
          simp only [ih]
      | dict fields =>
          unfold dumps serialisable
          rw [isOk_bind, isOk_mapM]
          refine List.all_congr rfl fun (key, value) => ?_
          change (key.text >>= fun key => value.dumps depth >>= fun text =>
            pure (quoteJson key ++ ": " ++ text)).isOk =
              (key.serialisable && value.serialisable depth)
          rw [← key.text_isOk, ← ih]
          cases key.text with
          | error e => rfl
          | ok key => exact isOk_bind (value.dumps depth) (quoteJson key ++ ": " ++ ·)
      | object typeName shown truth => exact isOk_map shown quoteJson
      | _ => rfl

example : PyValue.dumps 9 (.dict [(.str "a", .list [.int 1, .str "é\n"]), (.int 2, .none)]) =
    .ok "\x7b\"a\": [1, \"\\u00e9\\n\"], \"2\": null\x7d" := by decide +kernel

end Serialisable

end Tename
