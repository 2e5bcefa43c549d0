/-
  JSON values with sorted objects, as `serde_json` builds them.

  The members of an object are a list in the order of their keys.  `put` inserts and REPLACES, so an
  object built from a list of pairs keeps the last value under each key (`get_ofPairs`), while a search
  of the list finds the first.
-/
import Mathlib.Data.List.Induction
import Mathlib.Data.String.Basic

/-- `serde_json::Value`, the kinds that are built here; numbers are unsigned. -/
inductive Json where
  | string (text : String)
  | number (n : UInt64)
  | array (items : List Json)
  | object (members : List (String × Json))

namespace Json

variable {β : Type}

/-- The value under a key. -/
def get (members : List (String × β)) (key : String) : Option β :=
  (members.find? fun kv => kv.1 = key).map Prod.snd

/-- `Map::insert`. -/
def put (key : String) (value : β) : List (String × β) → List (String × β)
  | [] => [(key, value)]
  | kv :: rest =>
    if kv.1 = key then (key, value) :: rest
    else if key < kv.1 then (key, value) :: kv :: rest
    else kv :: put key value rest

theorem get_cons (kv : String × β) (rest : List (String × β)) (k : String) :
    get (kv :: rest) k = if kv.1 = k then some kv.2 else get rest k := by
  rw [get, List.find?_cons]
  by_cases h : kv.1 = k
  · simp [h]
  · simp [h, get]

/-- An insertion is seen under its key and nowhere else. -/
theorem get_put (key : String) (value : β) (k : String) : ∀ members : List (String × β),
    get (put key value members) k = if key = k then some value else get members k := by
  intro members
  induction members with
  | nil => rw [put, get_cons]
  | cons kv rest ih =>
    rw [put]
    split
    · -- replaced
      rename_i heq
      rw [get_cons, get_cons, heq]
      split <;> rfl
    · rename_i hne
      split
      · rw [get_cons]
      · rw [get_cons, ih, get_cons]
        by_cases hkey : key = k
        · rw [if_pos hkey, if_pos hkey, if_neg (hkey ▸ hne)]
        · rw [if_neg hkey, if_neg hkey]

/-- An object built pair by pair. -/
def ofPairs (pairs : List (String × β)) : List (String × β) :=
  pairs.foldl (fun members kv => put kv.1 kv.2 members) []

/-- The last value under a key. -/
def lastValue (pairs : List (String × β)) (key : String) : Option β := get pairs.reverse key

theorem lastValue_append (xs ys : List (String × β)) (key : String) :
    lastValue (xs ++ ys) key = (lastValue ys key).or (lastValue xs key) := by
  rw [lastValue, get, List.reverse_append, List.find?_append, Option.map_or]
  rfl

theorem lastValue_map {γ : Type} (f : β → γ) (pairs : List (String × β)) (key : String) :
    lastValue (pairs.map fun kv => (kv.1, f kv.2)) key = (lastValue pairs key).map f := by
  rw [lastValue, lastValue, Json.get, Json.get, ← List.map_reverse, List.find?_map, Option.map_map,
    Option.map_map]
  rfl

/-- **The last value wins**, by induction from the right. -/
theorem get_ofPairs (pairs : List (String × β)) (key : String) :
    get (ofPairs pairs) key = lastValue pairs key := by
  induction pairs using List.reverseRecOn with
  | nil => rfl
  | append_singleton pairs kv ih =>
    rw [ofPairs, List.foldl_append, List.foldl_cons, List.foldl_nil, get_put, lastValue,
      List.reverse_append, List.reverse_singleton, List.singleton_append, get_cons]
    exact if_congr Iff.rfl rfl ih

/-- A member of an object. -/
def field (key : String) : Json → Option Json
  | .object members => get members key
  | _ => none

end Json
