/-!
# Payloads

What a request carries to the radio and what a reply or an indication carries back.
-/

namespace ModemLink

/-- The body of a request, a reply or an indication: nothing, numbers, texts, or bytes nobody
reads. -/
inductive Payload where
  | empty
  | ints (values : List Int)
  | strings (values : List String)
  | raw (bytes : List UInt8)
deriving DecidableEq, Inhabited

/-- Whether the payload is the empty one; an empty list of numbers is not. -/
def Payload.isEmpty : Payload → Bool
  | .empty => true
  | _ => false

end ModemLink
