import Mathlib.Tactic

/-!
# JSON values

What a daemon answers may be any JSON value. A field is read with accessors that
give nothing for a value of another shape.
-/

namespace Buzz

inductive JsonNumber where
  | posInt (value : UInt64)
  | negInt (value : Int64)
  | float (bits : UInt64)
  deriving DecidableEq, Repr

/-- The fields of an object stand in the order of their keys. -/
inductive Json where
  | null
  | bool (value : Bool)
  | number (value : JsonNumber)
  | string (value : String)
  | array (items : List Json)
  | object (fields : List (String × Json))
  deriving Repr

namespace Json

section Equality

mutual

def beq : Json → Json → Bool
  | null, null => true
  | bool a, bool b => a == b
  | number a, number b => a == b
  | string a, string b => a == b
  | array as, array bs => beqItems as bs
  | object as, object bs => beqFields as bs
  | _, _ => false

def beqItems : List Json → List Json → Bool
  | [], [] => true
  | a :: as, b :: bs => beq a b && beqItems as bs
  | _, _ => false

def beqFields : List (String × Json) → List (String × Json) → Bool
  | [], [] => true
  | (key, a) :: as, (key', b) :: bs => key == key' && beq a b && beqFields as bs
  | _, _ => false

end

mutual

theorem beq_iff : ∀ a b : Json, beq a b = true ↔ a = b
  | null, b => by cases b <;> simp [beq]
  | bool _, b => by cases b <;> simp [beq]
  | number _, b => by cases b <;> simp [beq]
  | string _, b => by cases b <;> simp [beq]
  | array as, b => by
      cases b with
      | array bs => simp [beq, beqItems_iff as bs]
      | _ => simp [beq]
  | object as, b => by
      cases b with
      | object bs => simp [beq, beqFields_iff as bs]
      | _ => simp [beq]

theorem beqItems_iff : ∀ as bs : List Json, beqItems as bs = true ↔ as = bs
  | [], bs => by cases bs <;> simp [beqItems]
  | _ :: _, [] => by simp [beqItems]
  | a :: as, b :: bs => by simp [beqItems, beq_iff a b, beqItems_iff as bs]

theorem beqFields_iff : ∀ as bs : List (String × Json), beqFields as bs = true ↔ as = bs
  | [], bs => by cases bs <;> simp [beqFields]
  | _ :: _, [] => by simp [beqFields]
  | (key, a) :: as, (key', b) :: bs => by
      simp [beqFields, beq_iff a b, beqFields_iff as bs, and_assoc]

end

instance : DecidableEq Json :=
  fun a b => decidable_of_iff _ (beq_iff a b)

end Equality

def get (field : String) : Json → Option Json
  | object fields => (fields.find? fun entry => entry.1 == field).map Prod.snd
  | _ => none

def asStr : Json → Option String
  | string value => some value
  | _ => none

def asBool : Json → Option Bool
  | bool value => some value
  | _ => none

def asU64 : Json → Option UInt64
  | number (.posInt value) => some value
  | _ => none

def asArray : Json → Option (List Json)
  | array items => some items
  | _ => none

def isObject : Json → Bool
  | object _ => true
  | _ => false

variable (value : Json) (field : String)

def getStr : Option String := (value.get field).bind asStr

def getBool : Option Bool := (value.get field).bind asBool

def getU64 : Option UInt64 := (value.get field).bind asU64

def getArray : Option (List Json) := (value.get field).bind asArray

end Json
end Buzz
