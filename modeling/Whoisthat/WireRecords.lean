import Mathlib.Data.Int.Notation
import Mathlib.Data.List.Basic
import Mathlib.Tactic.SplitIfs
import Whoisthat.Json

/-!
# Records on the wire

A writer turns a record into members of distinct names, some of them left out
when they are zero. A reader finds members by name, with a default for one that
may be missing, and refuses integers outside its width and `null` for a list.
What a reader makes of what a writer wrote is `ensure fits value` throughout:
the value if the condition holds, and a failure otherwise.
-/

set_option autoImplicit false

namespace Whoisthat.WireRecords
open Json (Value Fields)

variable {α β γ : Type}

section Conditions

def ensure (fits : Bool) (a : α) : Option α := if fits then some a else none

@[simp] theorem ensure_true (a : α) : ensure true a = some a := rfl

@[simp] theorem ensure_false (a : α) : ensure false a = none := rfl

@[simp] theorem ensure_bind_ensure (p q : Bool) (a : α) (g : α → β) :
    (ensure p a).bind (fun x => ensure q (g x)) = ensure (p && q) (g a) := by
  cases p <;> rfl

@[simp] theorem ensure_bind_some (p : Bool) (a : α) (g : α → β) :
    (ensure p a).bind (fun x => some (g x)) = ensure p (g a) := by
  cases p <;> rfl

@[simp] theorem ensure_map (p : Bool) (a : α) (g : α → β) :
    (ensure p a).map g = ensure p (g a) := by
  cases p <;> rfl

theorem ensure_eq_some {p : Bool} {a b : α} : ensure p a = some b ↔ p = true ∧ a = b := by
  cases p <;> simp

theorem mapM_ensure (read : β → Option γ) (write : α → β) (fits : α → Bool) (seen : α → γ)
    (h : ∀ x, read (write x) = ensure (fits x) (seen x)) (l : List α) :
    (l.map write).mapM read = ensure (l.all fits) (l.map seen) := by
  induction l with
  | nil => rfl
  | cons x xs ih =>
    rw [List.map_cons,List.mapM_cons,h,ih]
    cases hx : fits x <;> cases hxs : xs.all fits <;> simp [hx,hxs]

end Conditions

section Writing

/-- The members of a record in order; one without a value is left out. -/
structure Record where
  entries : List (String × Option Value)
  nodup : (entries.map Prod.fst).Nodup

def written (entries : List (String × Option Value)) : Fields :=
  entries.filterMap fun e => e.2.map (e.1,·)

def Record.fields (r : Record) : Fields := written r.entries

def Record.value (r : Record) : Value := .obj r.fields

theorem mem_written {entries : List (String × Option Value)} {e : String × Value}
    (h : e ∈ written entries) : e.1 ∈ entries.map Prod.fst := by
  obtain ⟨⟨k,v⟩,hm,hv⟩ := List.mem_filterMap.mp h
  obtain ⟨w,-,rfl⟩ := Option.map_eq_some_iff.mp hv
  exact List.mem_map_of_mem hm

theorem lookup_written {entries : List (String × Option Value)}
    (hn : (entries.map Prod.fst).Nodup) (name : String) :
    (written entries).lookup name = (entries.lookup name).join := by
  induction entries with
  | nil => rfl
  | cons e rest ih =>
    obtain ⟨k,v⟩ := e
    obtain ⟨hk,hrest⟩ := List.nodup_cons.mp hn
    by_cases h : name = k
    · subst h
      have absent : (written rest).lookup name = none := by
        rw [List.lookup_eq_none_iff]
        intro e he
        have hne : e.1 ≠ name := fun heq => hk (heq ▸ mem_written he)
        simpa using hne.symm
      cases v with
      | none => simpa [written,List.lookup_cons] using absent
      | some v => simp [written]
    · have hb : (name == k) = false := beq_false_of_ne h
      cases v with
      | none => simpa [written,List.lookup_cons,hb] using ih hrest
      | some v => simpa [written,List.lookup_cons,hb] using ih hrest

def int (n : Int64) : Value := .int n.toInt

/-- A member that is left out when it is the zero value. -/
def omitzero (zero : Bool) (v : Value) : Option Value := if zero then none else some v

def omitString (s : String) : Option Value := omitzero (s = "") (.str s)

def omitInt (n : Int64) : Option Value := omitzero (n = 0) (int n)

def omitBool (b : Bool) : Option Value := omitzero (!b) (.bool b)

/-- A slice that may never have been made. -/
abbrev Slice (α : Type) := Option (List α)

def Slice.items (s : Slice α) : List α := Option.getD s []

def Slice.value (item : α → Value) : Slice α → Value
  | none => .null
  | some l => .arr (l.map item)

/-- An empty slice is left out, made or not. -/
def omitEmpty (item : α → Value) (s : Slice α) : Option Value :=
  omitzero s.items.isEmpty (.arr (s.items.map item))

/-- Only a slice that was never made is left out. -/
def omitNil (item : α → Value) (s : Slice α) : Option Value := s.map fun l => .arr (l.map item)

end Writing

section Reading

abbrev Reader (α : Type) := Value → Option α

def string : Reader String
  | .str s => some s
  | _ => none

def boolean : Reader Bool
  | .bool b => some b
  | _ => none

/-- An integer literal between two bounds. -/
def integer (lo hi : ℤ) : Reader ℤ
  | .num n =>
    let v : ℤ := if n.negative then -n.digits else n.digits
    if n.integral ∧ n.exponent = 0 ∧ lo ≤ v ∧ v < hi then some v else none
  | _ => none

def i32 : Reader Int32 := fun v => (integer (-2^31) (2^31) v).map Int32.ofInt

def i64 : Reader Int64 := fun v => (integer (-2^63) (2^63) v).map Int64.ofInt

def u32 : Reader UInt32 := fun v => (integer 0 (2^32) v).map fun n => UInt32.ofNat n.toNat

def u64 : Reader UInt64 := fun v => (integer 0 (2^64) v).map fun n => UInt64.ofNat n.toNat

def vec (item : Reader α) : Reader (List α)
  | .arr l => l.mapM item
  | _ => none

def optional (read : Reader α) : Reader (Option α)
  | .null => some none
  | v => (read v).map some

def record (read : Fields → Option α) : Reader α
  | .obj fields => read fields
  | _ => none

def required (read : Reader α) (name : String) (fields : Fields) : Option α :=
  (fields.lookup name).bind read

def defaulted (read : Reader α) (default : α) (name : String) (fields : Fields) : Option α :=
  (fields.lookup name).elim (some default) read

end Reading

section Agreement

@[simp] theorem required_fields (read : Reader α) (name : String) (r : Record) :
    required read name r.fields = (r.entries.lookup name).join.bind read := by
  rw [required,Record.fields,lookup_written r.nodup]

@[simp] theorem defaulted_fields (read : Reader α) (default : α) (name : String) (r : Record) :
    defaulted read default name r.fields =
      (r.entries.lookup name).join.elim (some default) read := by
  rw [defaulted,Record.fields,lookup_written r.nodup]

@[simp] theorem record_value (read : Fields → Option α) (r : Record) :
    record read r.value = read r.fields := rfl

@[simp] theorem optional_record_value (read : Fields → Option α) (r : Record) :
    optional (record read) r.value = (read r.fields).map some := rfl

@[simp] theorem string_str (s : String) : string (.str s) = some s := rfl

@[simp] theorem boolean_bool (b : Bool) : boolean (.bool b) = some b := rfl

theorem integer_int (lo hi n : ℤ) :
    integer lo hi (.int n) = ensure (lo ≤ n ∧ n < hi) n := by
  have hv : (if n < 0 then -(n.natAbs : ℤ) else (n.natAbs : ℤ)) = n := by
    split_ifs <;> omega
  simp only [integer,Value.int,ensure,true_and,decide_eq_true_eq,hv]

def narrow (n : Int64) : Int32 := Int32.ofInt n.toInt

def toU32 (n : Int64) : UInt32 := UInt32.ofNat n.toInt.toNat

def toU64 (n : Int64) : UInt64 := UInt64.ofNat n.toInt.toNat

/-- The number keeps its value in 32 bits. -/
def small (n : Int64) : Bool := (narrow n).toInt = n.toInt

/-- The number keeps its value in 32 bits without a sign. -/
def unsigned (n : Int64) : Bool := (toU32 n).toNat = n.toInt

/-- The number keeps its value in 64 bits without a sign. -/
def natural (n : Int64) : Bool := (toU64 n).toNat = n.toInt

theorem small_eq (n : Int64) : small n = decide (-2^31 ≤ n.toInt ∧ n.toInt < 2^31) := by
  refine decide_eq_decide.mpr ⟨fun h => ?_,fun h => Int32.toInt_ofInt_of_le h.1 h.2⟩
  rw [← h]
  exact ⟨(narrow n).le_toInt,(narrow n).toInt_lt⟩

theorem unsigned_eq (n : Int64) : unsigned n = decide (0 ≤ n.toInt ∧ n.toInt < 2^32) := by
  have h : (toU32 n).toNat = n.toInt.toNat % 2^32 := UInt32.toNat_ofNat'
  refine decide_eq_decide.mpr ?_
  rw [h]
  omega

theorem natural_eq (n : Int64) : natural n = decide (0 ≤ n.toInt ∧ n.toInt < 2^64) := by
  have h : (toU64 n).toNat = n.toInt.toNat % 2^64 := UInt64.toNat_ofNat'
  refine decide_eq_decide.mpr ?_
  rw [h]
  omega

@[simp] theorem i32_int (n : Int64) : i32 (int n) = ensure (small n) (narrow n) := by
  rw [i32,int,integer_int,ensure_map,small_eq,narrow]

@[simp] theorem i64_int (n : Int64) : i64 (int n) = some n := by
  have h : decide (-2^63 ≤ n.toInt ∧ n.toInt < 2^63) = true :=
    decide_eq_true ⟨n.le_toInt,n.toInt_lt⟩
  rw [i64,int,integer_int,ensure_map,h,ensure_true,Int64.ofInt_toInt]

@[simp] theorem u32_int (n : Int64) : u32 (int n) = ensure (unsigned n) (toU32 n) := by
  rw [u32,int,integer_int,ensure_map,unsigned_eq,toU32]

@[simp] theorem u64_int (n : Int64) : u64 (int n) = ensure (natural n) (toU64 n) := by
  rw [u64,int,integer_int,ensure_map,natural_eq,toU64]

theorem omitzero_elim (zero : Bool) (v : Value) (read : Reader α) (default : α)
    (h : zero = true → read v = some default) :
    (omitzero zero v).elim (some default) read = read v := by
  cases zero with
  | true => exact (h rfl).symm
  | false => rfl

@[simp] theorem omitString_elim (s : String) :
    (omitString s).elim (some "") string = some s :=
  omitzero_elim _ _ _ _ fun h => by rw [of_decide_eq_true h]; rfl

@[simp] theorem omitBool_elim (b : Bool) :
    (omitBool b).elim (some false) boolean = some b :=
  omitzero_elim _ _ _ _ fun h => by cases b <;> simp_all

@[simp] theorem omitInt_i32 (n : Int64) :
    (omitInt n).elim (some 0) i32 = ensure (small n) (narrow n) :=
  (omitzero_elim _ _ _ _ fun h => by rw [of_decide_eq_true h]; rfl).trans (i32_int n)

@[simp] theorem omitInt_i64 (n : Int64) :
    (omitInt n).elim (some 0) i64 = some n :=
  (omitzero_elim _ _ _ _ fun h => by rw [of_decide_eq_true h]; rfl).trans (i64_int n)

@[simp] theorem omitInt_u32 (n : Int64) :
    (omitInt n).elim (some 0) u32 = ensure (unsigned n) (toU32 n) :=
  (omitzero_elim _ _ _ _ fun h => by rw [of_decide_eq_true h]; rfl).trans (u32_int n)

section Lists

variable {item : Reader β} {write : α → Value} {fits : α → Bool} {seen : α → β}

theorem vec_arr (h : ∀ x, item (write x) = ensure (fits x) (seen x)) (l : List α) :
    vec item (.arr (l.map write)) = ensure (l.all fits) (l.map seen) :=
  mapM_ensure item write fits seen h l

/-- A list that has to be there is one that was made. -/
theorem vec_slice (h : ∀ x, item (write x) = ensure (fits x) (seen x)) (s : Slice α) :
    vec item (s.value write) = ensure (s.isSome && s.items.all fits) (s.items.map seen) := by
  cases s with
  | none => rfl
  | some l => simpa [Slice.value,Slice.items] using vec_arr h l

theorem omitEmpty_elim (h : ∀ x, item (write x) = ensure (fits x) (seen x)) (s : Slice α) :
    (omitEmpty write s).elim (some []) (vec item) =
      ensure (s.items.all fits) (s.items.map seen) := by
  rw [omitEmpty,omitzero_elim _ _ _ _ fun he => ?_,vec_arr h]
  simp [List.isEmpty_iff.mp he,vec]

theorem omitNil_elim (h : ∀ x, item (write x) = ensure (fits x) (seen x)) (s : Slice α) :
    (omitNil write s).elim (some []) (vec item) =
      ensure (s.items.all fits) (s.items.map seen) := by
  cases s with
  | none => rfl
  | some l => exact vec_arr h l

end Lists

theorem optional_elim {read : Fields → Option β} {write : α → Record} {fits : α → Bool}
    {seen : α → β} (h : ∀ x, read (write x).fields = ensure (fits x) (seen x)) (o : Option α) :
    (o.map fun x => (write x).value).elim (some none) (optional (record read)) =
      ensure (o.all fits) (o.map seen) := by
  cases o with
  | none => rfl
  | some x => simp [h]

end Agreement

end Whoisthat.WireRecords
