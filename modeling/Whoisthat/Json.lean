import Mathlib.Algebra.Ring.Int.Defs
import Mathlib.Algebra.Ring.Nat
import Mathlib.Data.Int.Notation
import Mathlib.Data.List.Basic
import Mathlib.Data.List.Nodup

/-!
# JSON documents and decoded objects

A document is its syntax: members in order, equal names kept, numbers as
written. Decoding into untyped maps keeps the last of several equal names and
needs every number to fit a double. Decoded objects are lists of members with
distinct names, read and updated by name.
-/

set_option autoImplicit false

namespace Whoisthat.Json

/-- A number literal: `digits · 10^exponent`, and whether it was written
without a fraction and an exponent. -/
structure Number where
  negative : Bool
  digits : ℕ
  exponent : ℤ
  integral : Bool
  deriving DecidableEq

inductive Value where
  | null
  | bool (b : Bool)
  | num (n : Number)
  | str (s : String)
  | arr (items : List Value)
  | obj (fields : List (String × Value))

abbrev Fields := List (String × Value)

def Value.int (n : ℤ) : Value := .num ⟨n < 0,n.natAbs,0,true⟩

def Value.strs (l : List String) : Value := .arr (l.map .str)

/-- The empty list of a variable nobody has filled is `null`. -/
def Value.arrOrNull (l : List Value) : Value := if l = [] then .null else .arr l

def Value.asMap : Value → Fields
  | .obj fields => fields
  | _ => []

def Value.asSlice : Value → List Value
  | .arr items => items
  | _ => []

def Value.asString : Value → String
  | .str s => s
  | _ => ""

def Value.isString : Value → Bool
  | .str _ => true
  | _ => false

/-- The value of a name; a name that is not there reads as `null`. -/
def Fields.index (fields : Fields) (name : String) : Value := (fields.lookup name).getD .null

def Fields.has (fields : Fields) (name : String) : Bool := (fields.lookup name).isSome

def Fields.put (fields : Fields) (name : String) (value : Value) : Fields :=
  match fields with
  | [] => [(name,value)]
  | (k,v)::rest => if name = k then (name,value)::rest else (k,v)::Fields.put rest name value

def Fields.delete (fields : Fields) (name : String) : Fields := fields.filter fun e => e.1 ≠ name

def Fields.keys (fields : Fields) : List String := fields.map Prod.fst

@[simp] theorem asSlice_arrOrNull (l : List Value) : (Value.arrOrNull l).asSlice = l := by
  unfold Value.arrOrNull
  split
  · rename_i h
    exact h.symm
  · rfl

@[simp] theorem lookup_put_self (fields : Fields) (name : String) (value : Value) :
    (fields.put name value).lookup name = some value := by
  induction fields with
  | nil => simp [Fields.put]
  | cons e rest ih =>
    obtain ⟨k,v⟩ := e
    by_cases h : name = k
    · simp [Fields.put,h]
    · simp [Fields.put,h,List.lookup_cons,beq_false_of_ne h,ih]

theorem lookup_put_of_ne {name other : String} (h : other ≠ name) (fields : Fields)
    (value : Value) : (fields.put name value).lookup other = fields.lookup other := by
  induction fields with
  | nil => simp [Fields.put,h]
  | cons e rest ih =>
    obtain ⟨k,v⟩ := e
    by_cases hk : name = k
    · subst hk
      simp [Fields.put,List.lookup_cons,beq_false_of_ne h]
    · simp [Fields.put,hk,List.lookup_cons,ih]

@[simp] theorem index_put_self (fields : Fields) (name : String) (value : Value) :
    (fields.put name value).index name = value := by
  simp [Fields.index]

theorem index_put_of_ne {name other : String} (h : other ≠ name) (fields : Fields)
    (value : Value) : (fields.put name value).index other = fields.index other := by
  simp [Fields.index,lookup_put_of_ne h]

@[simp] theorem has_put_self (fields : Fields) (name : String) (value : Value) :
    (fields.put name value).has name = true := by
  simp [Fields.has]

theorem has_put_of_ne {name other : String} (h : other ≠ name) (fields : Fields)
    (value : Value) : (fields.put name value).has other = fields.has other := by
  simp [Fields.has,lookup_put_of_ne h]

theorem lookup_delete_of_ne {name other : String} (h : other ≠ name) (fields : Fields) :
    (fields.delete name).lookup other = fields.lookup other := by
  induction fields with
  | nil => rfl
  | cons e rest ih =>
    obtain ⟨k,v⟩ := e
    by_cases hk : k = name
    · subst hk
      simpa [Fields.delete,List.lookup_cons,beq_false_of_ne h] using ih
    · have hcons : Fields.delete ((k,v)::rest) name = (k,v)::Fields.delete rest name := by
        simp [Fields.delete,hk]
      rw [hcons,List.lookup_cons,List.lookup_cons,ih]

theorem lookup_delete_self (fields : Fields) (name : String) :
    (fields.delete name).lookup name = none := by
  rw [List.lookup_eq_none_iff]
  intro e he
  have hne : e.1 ≠ name := by simpa using (List.mem_filter.mp he).2
  simpa using hne.symm

theorem index_delete_of_ne {name other : String} (h : other ≠ name) (fields : Fields) :
    (fields.delete name).index other = fields.index other := by
  simp [Fields.index,lookup_delete_of_ne h]

@[simp] theorem index_delete_self (fields : Fields) (name : String) :
    (fields.delete name).index name = .null := by
  simp [Fields.index,lookup_delete_self]

section Decoding

/-- The magnitudes `strconv.ParseFloat` rounds to infinity start here. -/
def floatLimit : ℕ := 2^1024 - 2^970

/-- The literal fits a double; what is too small becomes zero. -/
def Number.fits (n : Number) : Bool :=
  match n.exponent with
  | .ofNat e => n.digits * 10^e < floatLimit
  | .negSucc e => n.digits < floatLimit * 10^(e+1)

/-- `strconv.ParseInt` into 64 bits -/
def Number.int64 (n : Number) : Option ℤ :=
  let v : ℤ := if n.negative then -n.digits else n.digits
  if n.integral ∧ n.exponent = 0 ∧ -2^63 ≤ v ∧ v < 2^63 then some v else none

mutual

def Value.numbersFit : Value → Bool
  | .num n => n.fits
  | .arr items => numbersFitItems items
  | .obj fields => numbersFitFields fields
  | _ => true

def numbersFitItems : List Value → Bool
  | [] => true
  | v::vs => v.numbersFit && numbersFitItems vs

def numbersFitFields : List (String × Value) → Bool
  | [] => true
  | (_,v)::rest => v.numbersFit && numbersFitFields rest

end

mutual

/-- What the untyped decoder keeps of a document. -/
def Value.decode : Value → Value
  | .arr items => .arr (decodeItems items)
  | .obj fields => .obj (decodeFields [] fields)
  | other => other

def decodeItems : List Value → List Value
  | [] => []
  | v::vs => v.decode::decodeItems vs

def decodeFields (done : Fields) : List (String × Value) → Fields
  | [] => done
  | (k,v)::rest => decodeFields (done.put k v.decode) rest

end

/-- `json.Unmarshal` into an empty map. A `null` leaves the map empty. -/
def unmarshalMap (document : Value) : Option Fields :=
  match document with
  | .obj fields => if document.numbersFit then some (decodeFields [] fields) else none
  | .null => some []
  | _ => none

/-- The member that counts among those of one name. -/
def lastMember (fields : Fields) (name : String) : Option Value := fields.reverse.lookup name

theorem lastMember_cons (k : String) (v : Value) (rest : Fields) (name : String) :
    lastMember ((k,v)::rest) name =
      (lastMember rest name).or (if name = k then some v else none) := by
  unfold lastMember
  rw [List.reverse_cons,List.lookup_append]
  by_cases h : name = k
  · simp [h]
  · simp [h,List.lookup_cons,beq_false_of_ne h]

theorem lookup_decodeFields (fields done : Fields) (name : String) :
    (decodeFields done fields).lookup name =
      ((lastMember fields name).map Value.decode).or (done.lookup name) := by
  induction fields generalizing done with
  | nil => simp [decodeFields,lastMember]
  | cons e rest ih =>
    obtain ⟨k,v⟩ := e
    rw [decodeFields,ih,lastMember_cons]
    by_cases h : name = k
    · subst h
      cases lastMember rest name <;> simp
    · rw [lookup_put_of_ne h]
      cases lastMember rest name <;> simp [h]

theorem index_decodeFields (fields : Fields) (name : String) :
    Fields.index (decodeFields [] fields) name =
      ((lastMember fields name).map Value.decode).getD .null := by
  rw [Fields.index,lookup_decodeFields]
  cases lastMember fields name <;> rfl

theorem decodeItems_eq_map (items : List Value) : decodeItems items = items.map Value.decode := by
  induction items with
  | nil => rfl
  | cons v vs ih => rw [decodeItems,ih,List.map_cons]

theorem decode_eq_str {v : Value} {s : String} : v.decode = .str s ↔ v = .str s := by
  cases v <;> simp [Value.decode]

theorem decode_eq_arr {v : Value} {items : List Value} :
    v.decode = .arr items ↔ ∃ l, v = .arr l ∧ items = l.map Value.decode := by
  cases v <;> simp [Value.decode,decodeItems_eq_map,eq_comm]

theorem decode_eq_obj {v : Value} {fields : Fields} :
    v.decode = .obj fields ↔ ∃ l, v = .obj l ∧ fields = decodeFields [] l := by
  cases v <;> simp [Value.decode,eq_comm]

end Decoding

end Whoisthat.Json
