/-!
# Records

What configuration files and records hold: numbers, texts, lists, and tables of named entries.  Text
formats are read into a `Value` first; what is wanted is then read out of the value.

Main statement: `get?_of_table`.
-/

namespace ModemLink

/-- A value of a configuration file or record. -/
inductive Value where
  | null
  | boolean (value : Bool)
  | integer (value : Int)
  /-- A number with a fraction or an exponent, as it was written. -/
  | decimal (source : String)
  /-- A date or a time of day, as it was written. -/
  | moment (source : String)
  | text (value : String)
  | list (values : List Value)
  | table (entries : List (String × Value))
deriving Inhabited

namespace Value

/-- The entry of a name in a table. -/
def get? (value : Value) (name : String) : Option Value :=
  match value with
  | table entries => entries.lookup name
  | _ => none

/-- An integer within bounds, as a natural number. -/
def natBelow? (bound : Nat) : Value → Option Nat
  | integer n => if 0 ≤ n ∧ n < bound then some n.toNat else none
  | _ => none

/-- A text. -/
def text? : Value → Option String
  | text value => some value
  | _ => none

theorem get?_of_table (entries : List (String × Value)) (name : String) :
    (table entries).get? name = entries.lookup name := rfl

end Value

end ModemLink
