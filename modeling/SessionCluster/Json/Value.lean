/-
  JSON values — the payloads that callers store and the bodies they send.

  The members of an object are held in the order of their names, each name once; where a text
  repeats a name, the last value counts.  So two objects that differ only in the order of their
  members are one value, and the text of a value does not depend on how it was written.
-/
import SessionCluster.Json.Token

namespace SessionCluster

/-- A JSON value. -/
inductive Json where
  | null
  | bool (b : Bool)
  | number (n : Number)
  | string (s : String)
  | array (items : List Json)
  | object (members : List (String × Json))
deriving Inhabited

namespace Json

/-! ## Equality

Two values are equal when their constructors and parts are; the members of an object are
compared in order, which is the order of their names. -/

mutual
/-- Whether two values are the same. -/
def same : Json → Json → Bool
  | .null, .null => true
  | .bool a, .bool b => a == b
  | .number a, .number b => a == b
  | .string a, .string b => a == b
  | .array a, .array b => sameItems a b
  | .object a, .object b => sameMembers a b
  | _, _ => false

def sameItems : List Json → List Json → Bool
  | [], [] => true
  | a :: as, b :: bs => same a b && sameItems as bs
  | _, _ => false

def sameMembers : List (String × Json) → List (String × Json) → Bool
  | [], [] => true
  | (k, a) :: as, (l, b) :: bs => k == l && same a b && sameMembers as bs
  | _, _ => false
end

mutual
theorem same_iff : ∀ a b : Json, same a b = true ↔ a = b
  | .null, b => by cases b <;> simp [same]
  | .bool _, b => by cases b <;> simp [same]
  | .number _, b => by cases b <;> simp [same]
  | .string _, b => by cases b <;> simp [same]
  | .array x, b => by cases b <;> simp [same, sameItems_iff x]
  | .object x, b => by cases b <;> simp [same, sameMembers_iff x]

theorem sameItems_iff : ∀ a b : List Json, sameItems a b = true ↔ a = b
  | [], b => by cases b <;> simp [sameItems]
  | x :: xs, b => by cases b <;> simp [sameItems, same_iff x, sameItems_iff xs]

theorem sameMembers_iff : ∀ a b : List (String × Json), sameMembers a b = true ↔ a = b
  | [], b => by cases b <;> simp [sameMembers]
  | (k, x) :: xs, b => by
    cases b with
    | nil => simp [sameMembers]
    | cons y ys => simp [sameMembers, same_iff x, sameMembers_iff xs, Prod.ext_iff]
end

instance : DecidableEq Json := fun a b => decidable_of_iff _ (same_iff a b)

/-! ## Objects -/

/-- Puts a member at its place among members in order; a member of the same name gives way. -/
def insertMember (name : String) (value : Json) : List (String × Json) → List (String × Json)
  | [] => [(name, value)]
  | (k, v) :: rest =>
    if name < k then (name, value) :: (k, v) :: rest
    else if name = k then (name, value) :: rest
    else (k, v) :: insertMember name value rest

/-- The object with the given members; of several with one name the last counts. -/
def ofMembers (members : List (String × Json)) : Json :=
  .object (members.foldl (fun ms (k, v) => insertMember k v ms) [])

/-- The value of a member. -/
def member? (name : String) : Json → Option Json
  | .object ms => ms.lookup name
  | _ => none

/-- A whole number from zero up. -/
def natural (n : Nat) : Json := .number (.natural (UInt64.ofNat n))

/-- A whole number, which is null outside the range of whole numbers. -/
def whole (i : Int) : Json :=
  match Number.ofInt? i with
  | some n => .number n
  | none => .null

/-- A value that may be missing, which is then null. -/
def optional {α : Type} (f : α → Json) : Option α → Json
  | some a => f a
  | none => .null

/-! ## Writing -/

mutual
/-- The tokens of a value, followed by others. -/
def tokensThen : Json → List Token → List Token
  | .null, k => .null :: k
  | .bool b, k => .bool b :: k
  | .number n, k => .number (some n) :: k
  | .string s, k => .string (some s) :: k
  | .array items, k => .beginArray :: itemsThen items (.endArray :: k)
  | .object members, k => .beginObject :: membersThen members (.endObject :: k)

def itemsThen : List Json → List Token → List Token
  | [], k => k
  | x :: xs, k => tokensThen x (moreItemsThen xs k)

def moreItemsThen : List Json → List Token → List Token
  | [], k => k
  | x :: xs, k => .comma :: tokensThen x (moreItemsThen xs k)

def membersThen : List (String × Json) → List Token → List Token
  | [], k => k
  | (n, x) :: xs, k => .string (some n) :: .colon :: tokensThen x (moreMembersThen xs k)

def moreMembersThen : List (String × Json) → List Token → List Token
  | [], k => k
  | (n, x) :: xs, k =>
    .comma :: .string (some n) :: .colon :: tokensThen x (moreMembersThen xs k)
end

/-- The tokens of a value. -/
def toTokens (v : Json) : List Token := v.tokensThen []

/-- The compact text of a value. -/
def text (v : Json) : String := render v.toTokens

end Json

end SessionCluster
