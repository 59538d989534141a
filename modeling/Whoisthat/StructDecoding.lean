import Mathlib.Logic.Equiv.Defs
import Mathlib.Logic.Function.Basic
import Whoisthat.Json

/-!
# Decoding a document over a typed value

`json.Unmarshal` into a variable that holds a value already. A `null` and a
value of the wrong kind leave a variable as it is, the second with an error
that does not stop the rest; a member goes to the field of its name, or else to
one whose name differs in case only. What reaches a field is a matter of the
members of that field alone, taken in order.
-/

set_option autoImplicit false

namespace Whoisthat.StructDecoding
open Whoisthat.Json

section Decoders

variable {α : Type}

/-- What a value makes of a variable, and whether it is read without an error. -/
structure Decoder (α : Type) where
  into : Value → α → α
  accepts : Value → Bool

/-- Values decoded one after the other into one variable. -/
def Decoder.inTurn (d : Decoder α) (vs : List Value) (x : α) : α :=
  vs.foldl (fun y v => d.into v y) x

/-- The last value that can be read. -/
def said (read : Value → Option α) (vs : List Value) (x : α) : α :=
  (vs.filterMap read).getLast?.getD x

def isNull : Value → Bool
  | .null => true
  | _ => false

def scalar (read : Value → Option α) : Decoder α where
  into v x := (read v).getD x
  accepts v := isNull v || (read v).isSome

def text : Value → Option String
  | .str s => some s
  | _ => none

def flag : Value → Option Bool
  | .bool b => some b
  | _ => none

def int64 : Value → Option Int64
  | .num n => n.int64.map Int64.ofInt
  | _ => none

theorem said_cons (read : Value → Option α) (v : Value) (vs : List Value) (x : α) :
    said read (v::vs) x = said read vs ((read v).getD x) := by
  unfold said
  cases h : read v with
  | none => simp [h]
  | some a =>
    rw [List.filterMap_cons_some h]
    cases vs.filterMap read with
    | nil => rfl
    | cons b bs => simp [List.getLast?_eq_some_getLast]

theorem inTurn_scalar (read : Value → Option α) (vs : List Value) (x : α) :
    (scalar read).inTurn vs x = said read vs x := by
  induction vs generalizing x with
  | nil => rfl
  | cons v vs ih => exact (ih _).trans (said_cons read v vs x).symm

end Decoders

section Slices

variable {α : Type}

/-- A slice and what its array still holds behind it. -/
structure Slice (α : Type) where
  items : List α
  spare : List α
  deriving DecidableEq

def decodeInto (d : Decoder α) (zero : α) : List Value → List α → List α
  | [],_ => []
  | v::vs,[] => d.into v zero::decodeInto d zero vs []
  | v::vs,old::rest => d.into v old::decodeInto d zero vs rest

/-- The items are decoded over those the array holds; an empty array and `null`
take a new one. -/
def sliceOf (d : Decoder α) (zero : α) : Decoder (Slice α) where
  into
    | .null,_ => ⟨[],[]⟩
    | .arr [],_ => ⟨[],[]⟩
    | .arr vs,s => ⟨decodeInto d zero vs (s.items ++ s.spare),(s.items ++ s.spare).drop vs.length⟩
    | _,s => s
  accepts
    | .null => true
    | .arr vs => vs.all d.accepts
    | _ => false

/-- Items of which each is read leave nothing of the old ones. -/
theorem decodeInto_scalar (read : Value → Option α) (write : α → Value)
    (h : ∀ a, read (write a) = some a) (zero : α) (l old : List α) :
    decodeInto (scalar read) zero (l.map write) old = l := by
  have hinto : ∀ a old, (scalar read).into (write a) old = a := fun a old => by simp [scalar,h]
  induction l generalizing old with
  | nil => rfl
  | cons a l ih => cases old <;> simp [decodeInto,hinto,ih]

end Slices

section Structs

variable {ι : Type} [DecidableEq ι] {T : ι → Type} {σ : Type}

/-- The letters a name is compared by. Outside of ASCII only the long s and the
Kelvin sign fold to letters of ASCII. -/
def foldRune (c : Char) : Char :=
  if c = 'ſ' then 'S' else if c = '\u212a' then 'K' else c.toUpper

def foldName (s : String) : List Char := s.toList.map foldRune

/-- The fields of a struct: its values are families of values of the fields. -/
structure Layout (ι : Type) (T : ι → Type) (σ : Type) where
  shape : σ ≃ ∀ i, T i
  fields : List ι
  tag : ι → String
  decoder : ∀ i, Decoder (T i)

namespace Layout

variable (L : Layout ι T σ)

def get (x : σ) (i : ι) : T i := L.shape x i

def set (x : σ) (i : ι) (y : T i) : σ := L.shape.symm (Function.update (L.shape x) i y)

@[simp] theorem get_set_self (x : σ) (i : ι) (y : T i) : L.get (L.set x i y) i = y := by
  simp [get,set]

theorem get_set_of_ne {i j : ι} (h : i ≠ j) (x : σ) (y : T j) :
    L.get (L.set x j y) i = L.get x i := by
  simp [get,set,h]

omit [DecidableEq ι] in
theorem ext {x y : σ} (h : ∀ i, L.get x i = L.get y i) : x = y :=
  L.shape.injective (funext h)

/-- The field of a name, as it is written or else up to case. -/
def select (key : String) : Option ι :=
  (L.fields.find? fun i => L.tag i = key).or
    (L.fields.find? fun i => foldName (L.tag i) = foldName key)

def assign (x : σ) (key : String) (v : Value) : σ :=
  match L.select key with
  | some i => L.set x i ((L.decoder i).into v (L.get x i))
  | none => x

def assigns (key : String) (v : Value) : Bool :=
  match L.select key with
  | some i => (L.decoder i).accepts v
  | none => true

def decode : Decoder σ where
  into
    | .obj ms,x => ms.foldl (fun x e => L.assign x e.1 e.2) x
    | _,x => x
  accepts
    | .null => true
    | .obj ms => ms.all fun e => L.assigns e.1 e.2
    | _ => false

/-- The values of the members that go to a field. -/
def taken (i : ι) (ms : Fields) : List Value :=
  ms.filterMap fun e => if L.select e.1 = some i then some e.2 else none

theorem get_assign (x : σ) (key : String) (v : Value) (i : ι) :
    L.get (L.assign x key v) i =
      if L.select key = some i then (L.decoder i).into v (L.get x i) else L.get x i := by
  unfold assign
  cases h : L.select key with
  | none => rfl
  | some j =>
    by_cases hj : j = i
    · subst hj
      simp
    · simp [L.get_set_of_ne (Ne.symm hj),hj]

/-- A field gets the members that are its own, in their order. -/
theorem get_into_obj (ms : Fields) (x : σ) (i : ι) :
    L.get (L.decode.into (.obj ms) x) i = (L.decoder i).inTurn (L.taken i ms) (L.get x i) := by
  change L.get (ms.foldl (fun x e => L.assign x e.1 e.2) x) i = _
  induction ms generalizing x with
  | nil => rfl
  | cons e ms ih =>
    rw [List.foldl_cons,ih,get_assign,taken,taken,List.filterMap_cons]
    split <;> rfl

theorem get_into (v : Value) (x : σ) (i : ι) :
    L.get (L.decode.into v x) i = (L.decoder i).inTurn (L.taken i v.asMap) (L.get x i) := by
  cases v with
  | obj ms => exact L.get_into_obj ms x i
  | _ => rfl

/-- Objects decoded one after the other are to a field all their members of it. -/
theorem get_inTurn (vs : List Value) (x : σ) (i : ι) :
    L.get (L.decode.inTurn vs x) i =
      (L.decoder i).inTurn (vs.flatMap fun v => L.taken i v.asMap) (L.get x i) := by
  induction vs generalizing x with
  | nil => rfl
  | cons v vs ih =>
    rw [List.flatMap_cons,Decoder.inTurn,Decoder.inTurn,List.foldl_append,List.foldl_cons]
    exact (ih _).trans (congrArg _ (L.get_into v x i))

/-- The values of a field in all objects of a list. -/
def inner (i : ι) (vs : List Value) : List Value := vs.flatMap fun v => L.taken i v.asMap

theorem inTurn_eq_iff (vs ws : List Value) (x y : σ) :
    L.decode.inTurn vs x = L.decode.inTurn ws y ↔
      ∀ i, (L.decoder i).inTurn (L.inner i vs) (L.get x i) =
        (L.decoder i).inTurn (L.inner i ws) (L.get y i) := by
  constructor
  · intro h i
    rw [inner,inner,← get_inTurn,← get_inTurn,h]
  · intro h
    refine L.ext fun i => ?_
    rw [get_inTurn,get_inTurn]
    exact h i

theorem taken_written {kept : List ι} (hnodup : kept.Nodup)
    (hselect : ∀ i ∈ kept, L.select (L.tag i) = some i) (w : ι → Value) (i : ι) :
    L.taken i (kept.map fun j => (L.tag j,w j)) = if i ∈ kept then [w i] else [] := by
  induction kept with
  | nil => rfl
  | cons j kept ih =>
    obtain ⟨hj,hrest⟩ := List.nodup_cons.mp hnodup
    have hkept := ih hrest fun k hk => hselect k (List.mem_cons_of_mem j hk)
    rw [taken] at hkept
    rw [taken,List.map_cons,List.filterMap_cons,hselect j List.mem_cons_self,hkept]
    by_cases h : j = i
    · subst h
      simp [hj]
    · simp [h,Ne.symm h]

/-- What is written of a struct is read back, over any value that has the
fields left out. -/
theorem into_written {x y : σ} {kept : List ι} (hnodup : kept.Nodup)
    (hselect : ∀ i ∈ kept, L.select (L.tag i) = some i) (w : ι → Value)
    (hread : ∀ i ∈ kept, (L.decoder i).into (w i) (L.get y i) = L.get x i)
    (hleft : ∀ i ∉ kept, L.get y i = L.get x i) :
    L.decode.into (.obj (kept.map fun i => (L.tag i,w i))) y = x := by
  refine L.ext fun i => ?_
  rw [get_into_obj,L.taken_written hnodup hselect]
  by_cases h : i ∈ kept
  · rw [if_pos h]
    exact hread i h
  · rw [if_neg h]
    exact hleft i h

theorem accepts_written {kept : List ι}
    (hselect : ∀ i ∈ kept, L.select (L.tag i) = some i) (w : ι → Value)
    (hread : ∀ i ∈ kept, (L.decoder i).accepts (w i) = true) :
    L.decode.accepts (.obj (kept.map fun i => (L.tag i,w i))) = true := by
  refine List.all_eq_true.mpr fun e he => ?_
  obtain ⟨i,hi,rfl⟩ := List.mem_map.mp he
  rw [assigns,hselect i hi]
  exact hread i hi

end Layout

end Structs

section Maps

/-- A decoded map keeps the last member of each name. -/
def membersOf (ms : Fields) : Fields := ms.foldl (fun m e => m.put e.1 e.2) []

theorem lookup_foldl_put (ms done : Fields) (name : String) :
    (ms.foldl (fun m e => m.put e.1 e.2) done).lookup name =
      (lastMember ms name).or (done.lookup name) := by
  induction ms generalizing done with
  | nil => simp [lastMember]
  | cons e rest ih =>
    obtain ⟨k,v⟩ := e
    rw [List.foldl_cons,ih,lastMember_cons]
    by_cases h : name = k
    · subst h
      cases lastMember rest name <;> simp
    · rw [lookup_put_of_ne h]
      cases lastMember rest name <;> simp [h]

theorem lookup_membersOf (ms : Fields) (name : String) :
    (membersOf ms).lookup name = lastMember ms name := by
  rw [membersOf,lookup_foldl_put]
  simp

theorem mem_keys_put {m : Fields} {k name : String} {v : Value} :
    k ∈ (m.put name v).keys ↔ k = name ∨ k ∈ m.keys := by
  induction m with
  | nil => simp [Fields.put,Fields.keys]
  | cons e rest ih =>
    obtain ⟨k',v'⟩ := e
    unfold Fields.put
    split
    · rename_i h
      subst h
      simp [Fields.keys]
    · simp only [Fields.keys,List.map_cons,List.mem_cons] at ih ⊢
      rw [ih]
      tauto

theorem nodup_put {m : Fields} (h : m.keys.Nodup) (name : String) (v : Value) :
    (m.put name v).keys.Nodup := by
  induction m with
  | nil => simp [Fields.put,Fields.keys]
  | cons e rest ih =>
    obtain ⟨k',v'⟩ := e
    obtain ⟨hk,hrest⟩ := List.nodup_cons.mp h
    unfold Fields.put
    split
    · rename_i hname
      subst hname
      exact h
    · rename_i hname
      refine List.nodup_cons.mpr ⟨fun hmem => ?_,ih hrest⟩
      exact (mem_keys_put.mp hmem).elim (fun he => hname he.symm) hk

theorem nodup_membersOf (ms : Fields) : (membersOf ms).keys.Nodup := by
  have hkeep : ∀ (l done : Fields), done.keys.Nodup →
      (l.foldl (fun m e => m.put e.1 e.2) done).keys.Nodup := by
    intro l
    induction l with
    | nil => exact fun _ h => h
    | cons e l ih => exact fun done h => ih _ (nodup_put h e.1 e.2)
  exact hkeep ms [] List.nodup_nil

end Maps

end Whoisthat.StructDecoding
