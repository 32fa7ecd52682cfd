import Mathlib.Data.List.Basic
import Mathlib.Data.Rat.Defs
import Mathlib.Tactic

/-!
# Values of a script and what JSON keeps of them

A value that is written as JSON and read again comes back without what JSON has no
form for: a member that is undefined is left out, a number that is not finite and
an item that is undefined become null.
-/

inductive JsNumber where
  | finite (value : ℚ)
  | infinite (negative : Bool)
  | nan
  deriving DecidableEq

inductive JsValue where
  | undefined
  | null
  | bool (value : Bool)
  | number (value : JsNumber)
  | string (value : String)
  | array (items : List JsValue)
  | object (members : List (String × JsValue))

namespace JsValue

section Access

def isUndefined : JsValue → Bool
  | undefined => true
  | _ => false

def isNullish : JsValue → Bool
  | undefined => true
  | null => true
  | _ => false

def asString : JsValue → Option String
  | string value => some value
  | _ => none

def isNumber : JsValue → Bool
  | number _ => true
  | _ => false

def isBool : JsValue → Bool
  | bool _ => true
  | _ => false

def asArray : JsValue → Option (List JsValue)
  | array items => some items
  | _ => none

def memberOf (members : List (String × JsValue)) (name : String) : JsValue :=
  ((members.find? fun member => member.1 = name).map Prod.snd).getD undefined

/-- A member of an object; other values have none. -/
def property : JsValue → String → JsValue
  | object members, name => memberOf members name
  | _, _ => undefined

/-- Sets a member in place, or adds it at the end. -/
def setMember (members : List (String × JsValue)) (name : String) (value : JsValue) :
    List (String × JsValue) :=
  if name ∈ members.map Prod.fst then
    members.map fun member => if member.1 = name then (name, value) else member
  else members ++ [(name, value)]

/-- `===` between values of which no two objects are one and the same. -/
def strictEq : JsValue → JsValue → Bool
  | undefined, undefined => true
  | null, null => true
  | bool a, bool b => a == b
  | number .nan, number _ => false
  | number a, number b => decide (a = b)
  | string a, string b => a == b
  | _, _ => false

end Access

section Carried

mutual

/-- The value after it is written as JSON and read again. -/
def carried : JsValue → JsValue
  | undefined => null
  | null => null
  | bool value => bool value
  | number (.finite value) => number (.finite value)
  | number _ => null
  | string value => string value
  | array items => array (carriedItems items)
  | object members => object (carriedMembers members)

def carriedItems : List JsValue → List JsValue
  | [] => []
  | item :: items => carried item :: carriedItems items

def carriedMembers : List (String × JsValue) → List (String × JsValue)
  | [] => []
  | (name, value) :: members =>
      if value.isUndefined then carriedMembers members
      else (name, carried value) :: carriedMembers members

end

/-- The value has a form of its own in JSON. -/
def IsJson (value : JsValue) : Prop := carried value = value

theorem IsJson.isUndefined {value : JsValue} (h : IsJson value) : value.isUndefined = false := by
  cases value with
  | undefined => cases h
  | _ => rfl

theorem carried_isUndefined (value : JsValue) : (carried value).isUndefined = false := by
  cases value with
  | number n => cases n <;> rfl
  | _ => rfl

mutual

theorem isJson_carried : ∀ value : JsValue, IsJson (carried value)
  | undefined => rfl
  | null => rfl
  | bool _ => rfl
  | number (.finite _) => rfl
  | number (.infinite _) => rfl
  | number .nan => rfl
  | string _ => rfl
  | array items => congrArg array (carriedItems_carriedItems items)
  | object members => congrArg object (carriedMembers_carriedMembers members)

theorem carriedItems_carriedItems : ∀ items : List JsValue,
    carriedItems (carriedItems items) = carriedItems items
  | [] => rfl
  | item :: items => by
      have hitem : carried (carried item) = carried item := isJson_carried item
      rw [carriedItems, carriedItems, hitem, carriedItems_carriedItems items]

theorem carriedMembers_carriedMembers : ∀ members : List (String × JsValue),
    carriedMembers (carriedMembers members) = carriedMembers members
  | [] => rfl
  | (name, value) :: members => by
      rw [carriedMembers]
      by_cases hvalue : value.isUndefined = true
      · rw [if_pos hvalue]
        exact carriedMembers_carriedMembers members
      · have hcarried : carried (carried value) = carried value := isJson_carried value
        rw [if_neg hvalue, carriedMembers, carried_isUndefined, if_neg Bool.false_ne_true,
          hcarried, carriedMembers_carriedMembers members]

end

theorem carriedItems_eq_map (items : List JsValue) : carriedItems items = items.map carried := by
  induction items with
  | nil => rfl
  | cons item items ih => rw [carriedItems, ih, List.map_cons]

theorem isJson_array_iff {items : List JsValue} :
    IsJson (array items) ↔ ∀ item ∈ items, IsJson item := by
  unfold IsJson
  rw [carried, array.injEq, carriedItems_eq_map]
  nth_rewrite 2 [← List.map_id items]
  exact List.map_inj_left

theorem length_carriedMembers_le (members : List (String × JsValue)) :
    (carriedMembers members).length ≤ members.length := by
  induction members with
  | nil => exact le_rfl
  | cons member members ih =>
    obtain ⟨name, value⟩ := member
    rw [carriedMembers]
    split_ifs
    · exact ih.trans (Nat.le_succ _)
    · exact Nat.succ_le_succ ih

theorem carriedMembers_eq_self_iff (members : List (String × JsValue)) :
    carriedMembers members = members ↔ ∀ member ∈ members, IsJson member.2 := by
  induction members with
  | nil => simp [carriedMembers]
  | cons member members ih =>
    obtain ⟨name, value⟩ := member
    rw [carriedMembers, List.forall_mem_cons, ← ih]
    by_cases hvalue : value.isUndefined = true
    · -- a member that is left out makes the list shorter
      rw [if_pos hvalue]
      constructor
      · intro h
        have hlength := length_carriedMembers_le members
        rw [h, List.length_cons] at hlength
        omega
      · rintro ⟨hjson, -⟩
        rw [hjson.isUndefined] at hvalue
        cases hvalue
    · rw [if_neg hvalue, List.cons.injEq, Prod.mk.injEq]
      simp only [true_and, IsJson]

theorem isJson_object_iff {members : List (String × JsValue)} :
    IsJson (object members) ↔ ∀ member ∈ members, IsJson member.2 := by
  rw [← carriedMembers_eq_self_iff]
  unfold IsJson
  rw [carried, object.injEq]

end Carried

section Members

variable {members : List (String × JsValue)} {name other : String} {value : JsValue}

theorem memberOf_cons (member : String × JsValue) :
    memberOf (member :: members) name =
      if member.1 = name then member.2 else memberOf members name := by
  unfold memberOf
  by_cases h : member.1 = name
  · simp [h]
  · simp [h]

theorem memberOf_append_singleton (h : name ∉ members.map Prod.fst) :
    memberOf (members ++ [(name, value)]) other =
      if name = other then value else memberOf members other := by
  induction members with
  | nil => rw [List.nil_append, memberOf_cons]
  | cons member members ih =>
    rw [List.map_cons, List.mem_cons, not_or] at h
    rw [List.cons_append, memberOf_cons, memberOf_cons, ih h.2]
    by_cases hother : member.1 = other
    · have hne : name ≠ other := fun heq => h.1 (heq.trans hother.symm)
      simp [hother, hne]
    · simp [hother]

theorem memberOf_setMember :
    memberOf (setMember members name value) other =
      if name = other then value else memberOf members other := by
  unfold setMember
  split_ifs with hmem hother
  · subst hother
    induction members with
    | nil => simp at hmem
    | cons member members ih =>
      rw [List.map_cons, memberOf_cons]
      by_cases hname : member.1 = name
      · simp [hname]
      · rw [List.map_cons, List.mem_cons] at hmem
        rw [if_neg hname, if_neg hname]
        exact ih (hmem.resolve_left (Ne.symm hname))
  · clear hmem
    induction members with
    | nil => rfl
    | cons member members ih =>
      rw [List.map_cons, memberOf_cons, memberOf_cons, ih]
      by_cases hname : member.1 = name
      · simp [hname, hother]
      · rw [if_neg hname]
  · rw [memberOf_append_singleton hmem, if_pos ‹_›]
  · rw [memberOf_append_singleton hmem, if_neg ‹_›]

theorem forall_mem_setMember {P : JsValue → Prop} (hmembers : ∀ member ∈ members, P member.2)
    (hvalue : P value) : ∀ member ∈ setMember members name value, P member.2 := by
  unfold setMember
  intro member hmember
  split_ifs at hmember with hmem
  · obtain ⟨held, hheld, rfl⟩ := List.mem_map.mp hmember
    split_ifs
    · exact hvalue
    · exact hmembers held hheld
  · rcases List.mem_append.mp hmember with hold | hnew
    · exact hmembers member hold
    · rw [List.mem_singleton.mp hnew]
      exact hvalue

end Members

end JsValue
