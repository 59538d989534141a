import Whoisthat.StructDecoding
import Whoisthat.WireRecords

/-!
# Decoding a document member by member

The members of a variable that a document is decoded into, each with what a value
makes of it. A member goes to the field of its name, or else to one whose name
differs in case only; other members are left out. A value that a field cannot take
makes the whole an error.
-/

set_option autoImplicit false

namespace Whoisthat.MemberDecoding
open Whoisthat.Json Whoisthat.StructDecoding
open Whoisthat.WireRecords (written Record)

variable {σ α : Type}

section Structs

structure Member (σ : Type) where
  tag : String
  into : Value → σ → σ
  accepts : Value → Bool

def member (tag : String) (d : Decoder α) (get : σ → α) (set : σ → α → σ) : Member σ :=
  ⟨tag,fun v x => set x (d.into v (get x)),d.accepts⟩

def select (fs : List (Member σ)) (key : String) : Option (Member σ) :=
  (fs.find? fun f => f.tag = key).or (fs.find? fun f => foldName f.tag = foldName key)

def assign (fs : List (Member σ)) (x : σ) (e : String × Value) : σ :=
  (select fs e.1).elim x fun f => f.into e.2 x

def struct (fs : List (Member σ)) : Decoder σ where
  into
    | .obj ms,x => ms.foldl (assign fs) x
    | _,x => x
  accepts
    | .null => true
    | .obj ms => ms.all fun e => (select fs e.1).all fun f => f.accepts e.2
    | _ => false

/-- `json.Unmarshal` into a new variable. -/
def unmarshal (d : Decoder σ) (zero : σ) (v : Value) : Option σ :=
  if d.accepts v then some (d.into v zero) else none

/-- A pointer: `null` makes it nil, and what it points to is made when it is needed. -/
def pointer (d : Decoder α) (zero : α) : Decoder (Option α) where
  into
    | .null,_ => none
    | v,x => some (d.into v (x.getD zero))
  accepts
    | .null => true
    | v => d.accepts v

/-- A slice that is not made yet. -/
def list (d : Decoder α) (zero : α) : Decoder (Option (List α)) where
  into
    | .null,_ => none
    | .arr vs,x => some (decodeInto d zero vs (x.getD []))
    | _,x => x
  accepts
    | .null => true
    | .arr vs => vs.all d.accepts
    | _ => false

def put (m : List (String × α)) (key : String) (a : α) : List (String × α) :=
  match m with
  | [] => [(key,a)]
  | (k,b)::rest => if k = key then (key,a)::rest else (k,b)::put rest key a

/-- A map of names; each value is decoded into a new variable. -/
def map (d : Decoder α) (zero : α) : Decoder (Option (List (String × α))) where
  into
    | .null,_ => none
    | .obj ms,x => some (ms.foldl (fun m e => put m e.1 (d.into e.2 zero)) (x.getD []))
    | _,x => x
  accepts
    | .null => true
    | .obj ms => ms.all fun e => d.accepts e.2
    | _ => false

end Structs

section Ordered

/-- The order of names: that of their code points, which is that of their bytes. -/
def precedes : List Char → List Char → Bool
  | [],[] => false
  | [],_::_ => true
  | _::_,[] => false
  | a::s,b::t => a.toNat < b.toNat || (a = b && precedes s t)

def before (s t : String) : Bool := precedes s.toList t.toList

theorem precedes_asymm (s t : List Char) (h : precedes s t = true) : precedes t s = false := by
  induction s generalizing t with
  | nil => cases t <;> simp_all [precedes]
  | cons a s ih =>
    cases t with
    | nil => simp [precedes] at h
    | cons b t =>
      simp only [precedes,Bool.or_eq_true,Bool.and_eq_true,decide_eq_true_eq] at h
      rcases h with hlt | ⟨rfl,hs⟩
      · have hne : b ≠ a := by
          rintro rfl
          exact lt_irrefl _ hlt
        simp [precedes,hne,Nat.le_of_lt hlt]
      · simp [precedes,ih t hs]

theorem before_asymm {s t : String} (h : before s t = true) : before t s = false :=
  precedes_asymm _ _ h

theorem before_ne {s t : String} (h : before s t = true) : s ≠ t := by
  rintro rfl
  exact absurd (before_asymm h) (by simp [h])

/-- The insertion into an ordered map. -/
def insertKey (key : String) (v : Value) : Fields → Fields
  | [] => [(key,v)]
  | (k,w)::rest =>
    if before key k then (key,v)::(k,w)::rest
    else if key = k then (key,v)::rest
    else (k,w)::insertKey key v rest

mutual

/-- A value as the client holds it. -/
def held : Value → Value
  | .arr items => .arr (heldItems items)
  | .obj fields => .obj (heldFields [] fields)
  | v => v

def heldItems : List Value → List Value
  | [] => []
  | v::rest => held v::heldItems rest

def heldFields (done : Fields) : List (String × Value) → Fields
  | [] => done
  | (k,v)::rest => heldFields (insertKey k (held v) done) rest

end

theorem insertKey_perm {key : String} (v : Value) {fields : Fields}
    (h : key ∉ fields.map Prod.fst) : (insertKey key v fields).Perm ((key,v)::fields) := by
  induction fields with
  | nil => exact .refl _
  | cons e rest ih =>
    obtain ⟨k,w⟩ := e
    simp only [List.map_cons,List.mem_cons,not_or] at h
    rw [insertKey]
    split_ifs with hlt heq
    · exact .refl _
    · exact absurd heq h.1
    · exact ((ih h.2).cons _).trans (.swap _ _ _)

theorem insertKey_last {key : String} (v : Value) {fields : Fields}
    (h : ∀ e ∈ fields, before e.1 key = true) : insertKey key v fields = fields++[(key,v)] := by
  induction fields with
  | nil => rfl
  | cons e rest ih =>
    obtain ⟨k,w⟩ := e
    have hk : before k key = true := h (k,w) List.mem_cons_self
    rw [insertKey,before_asymm hk,if_neg (by simp),if_neg (before_ne hk).symm,
      ih fun e he => h e (List.mem_cons_of_mem _ he)]
    rfl

theorem heldFields_perm {fields done : Fields} (h : ((done++fields).map Prod.fst).Nodup) :
    (heldFields done fields).Perm (done++fields.map fun e => (e.1,held e.2)) := by
  induction fields generalizing done with
  | nil => simp [heldFields]
  | cons e rest ih =>
    obtain ⟨k,v⟩ := e
    have hk : k ∉ done.map Prod.fst := by
      rw [List.map_append,List.map_cons] at h
      exact fun hm => (List.nodup_append.mp h).2.2 k hm k List.mem_cons_self rfl
    have hins := insertKey_perm (held v) hk
    have hnext : ((insertKey k (held v) done++rest).map Prod.fst).Nodup := by
      have hperm : ((insertKey k (held v) done++rest).map Prod.fst).Perm
          ((done++(k,v)::rest).map Prod.fst) := by
        have := (hins.append_right rest).map Prod.fst
        refine this.trans ?_
        simpa using List.perm_middle.symm
      exact hperm.nodup_iff.mpr h
    refine (ih hnext).trans ((hins.append_right _).trans ?_)
    simpa using List.perm_middle.symm

/-- Members in the order of their names stay where they are. -/
theorem heldFields_sorted {fields done : Fields}
    (h : ((done++fields).map Prod.fst).Pairwise fun a b => before a b = true) :
    heldFields done fields = done++fields.map fun e => (e.1,held e.2) := by
  induction fields generalizing done with
  | nil => simp [heldFields]
  | cons e rest ih =>
    obtain ⟨k,v⟩ := e
    have hlast : ∀ e ∈ done, before e.1 k = true := by
      rw [List.map_append,List.map_cons] at h
      intro e he
      exact (List.pairwise_append.mp h).2.2 e.1 (List.mem_map_of_mem he) k List.mem_cons_self
    rw [heldFields,insertKey_last _ hlast,ih (by simpa using h)]
    simp

end Ordered

section Written

variable {fs : List (Member σ)}

theorem select_self (hn : (fs.map Member.tag).Nodup) {f : Member σ} (hf : f ∈ fs) :
    select fs f.tag = some f := by
  have hfind : (fs.find? fun g => g.tag = f.tag) = some f := by
    induction fs with
    | nil => simp at hf
    | cons g fs ih =>
      obtain ⟨hg,hrest⟩ := List.nodup_cons.mp hn
      rcases List.mem_cons.mp hf with rfl | hf
      · simp
      · have hne : g.tag ≠ f.tag := fun he => hg (he ▸ List.mem_map_of_mem hf)
        rw [List.find?_cons_of_neg (by simpa using hne)]
        exact ih hrest hf
  simp [select,hfind]

/-- What a writer wrote with the names of some members is read one member after the
other; a member that is left out stays as it is. -/
theorem into_written (hn : (fs.map Member.tag).Nodup) {gs : List (Member σ)} (hg : gs ⊆ fs)
    {entries : List (String × Option Value)} (ht : gs.map Member.tag = entries.map Prod.fst)
    (x : σ) :
    (struct fs).into (.obj (written entries)) x =
      (gs.zip entries).foldl (fun x p => p.2.2.elim x fun v => p.1.into v x) x := by
  induction gs generalizing entries x with
  | nil =>
    cases entries with
    | nil => rfl
    | cons e rest => simp at ht
  | cons f gs ih =>
    cases entries with
    | nil => simp at ht
    | cons e rest =>
      obtain ⟨k,o⟩ := e
      obtain ⟨hf,hgs⟩ := List.cons_subset.mp hg
      simp only [List.map_cons,List.cons.injEq] at ht
      obtain ⟨rfl,hrest⟩ := ht
      cases o with
      | none => exact ih hgs hrest x
      | some v =>
        have hstep : assign fs x (f.tag,v) = f.into v x := by
          simp [assign,select_self hn hf]
        change (written rest).foldl (assign fs) (assign fs x (f.tag,v)) = _
        rw [hstep]
        exact ih hgs hrest _

theorem accepts_written (hn : (fs.map Member.tag).Nodup) {gs : List (Member σ)} (hg : gs ⊆ fs)
    {entries : List (String × Option Value)} (ht : gs.map Member.tag = entries.map Prod.fst) :
    (struct fs).accepts (.obj (written entries)) =
      (gs.zip entries).all fun p => p.2.2.all p.1.accepts := by
  induction gs generalizing entries with
  | nil =>
    cases entries with
    | nil => rfl
    | cons e rest => simp at ht
  | cons f gs ih =>
    cases entries with
    | nil => simp at ht
    | cons e rest =>
      obtain ⟨k,o⟩ := e
      obtain ⟨hf,hgs⟩ := List.cons_subset.mp hg
      simp only [List.map_cons,List.cons.injEq] at ht
      obtain ⟨rfl,hrest⟩ := ht
      have hih := ih hgs hrest
      simp only [struct] at hih
      cases o with
      | none => simpa [struct,written] using hih
      | some v =>
        simp only [struct,written,List.filterMap_cons,Option.map_some,List.all_cons,
          select_self hn hf,Option.all_some,List.zip_cons_cons]
        exact congrArg (f.accepts v && ·) hih

theorem names_nodup (r : Record) : (r.fields.map Prod.fst).Nodup := by
  refine List.Sublist.nodup ?_ r.nodup
  rw [Record.fields]
  induction r.entries with
  | nil => exact .refl _
  | cons e rest ih =>
    obtain ⟨k,o⟩ := e
    cases o with
    | none => exact ih.cons _
    | some v => exact ih.cons_cons _

/-- Members that can be read one after the other in any order. -/
def Independent (fs : List (Member σ)) : Prop :=
  ∀ f ∈ fs, ∀ g ∈ fs, f.tag ≠ g.tag → ∀ v w x, g.into w (f.into v x) = f.into v (g.into w x)

theorem into_perm (hi : Independent fs) {ms ms' : Fields} (hp : ms.Perm ms')
    (hn : (ms.map Prod.fst).Nodup) (hs : ∀ e ∈ ms, e.1 ∈ fs.map Member.tag)
    (ht : (fs.map Member.tag).Nodup) (x : σ) :
    (struct fs).into (.obj ms) x = (struct fs).into (.obj ms') x := by
  refine hp.foldl_eq' ?_ x
  intro e he e' he' y
  by_cases heq : e.1 = e'.1
  · rw [List.inj_on_of_nodup_map hn he he' heq]
  · obtain ⟨f,hf,hfe⟩ := List.mem_map.mp (hs e he)
    obtain ⟨g,hg,hge⟩ := List.mem_map.mp (hs e' he')
    simp only [assign,← hfe,← hge,select_self ht hf,select_self ht hg,Option.elim_some]
    exact hi f hf g hg (by rwa [hfe,hge]) _ _ _

theorem accepts_perm {ms ms' : Fields} (hp : ms.Perm ms') :
    (struct fs).accepts (.obj ms) = (struct fs).accepts (.obj ms') :=
  hp.all_eq

/-- The members of an object that is held are decoded as they were written. -/
theorem into_held (hi : Independent fs) (ht : (fs.map Member.tag).Nodup) {ms : Fields}
    (hn : (ms.map Prod.fst).Nodup) (hs : ∀ e ∈ ms, e.1 ∈ fs.map Member.tag) (x : σ) :
    (struct fs).into (held (.obj ms)) x =
      (struct fs).into (.obj (ms.map fun e => (e.1,held e.2))) x := by
  have hp : (heldFields [] ms).Perm (ms.map fun e => (e.1,held e.2)) := heldFields_perm hn
  have hnames : ((heldFields [] ms).map Prod.fst).Perm (ms.map Prod.fst) := by
    simpa [Function.comp_def] using hp.map Prod.fst
  rw [held]
  refine into_perm hi hp (hnames.nodup_iff.mpr hn) (fun e he => ?_) ht x
  obtain ⟨e',he',h⟩ := List.mem_map.mp (hnames.subset (List.mem_map_of_mem he))
  exact h ▸ hs e' he'

theorem accepts_held {ms : Fields} (hn : (ms.map Prod.fst).Nodup) :
    (struct fs).accepts (held (.obj ms)) =
      (struct fs).accepts (.obj (ms.map fun e => (e.1,held e.2))) := by
  rw [held]
  have hp : (heldFields [] ms).Perm (ms.map fun e => (e.1,held e.2)) := heldFields_perm hn
  exact accepts_perm hp

@[simp] theorem heldItems_map {β : Type} (write : β → Value) (l : List β) :
    heldItems (l.map write) = l.map fun b => held (write b) := by
  induction l with
  | nil => rfl
  | cons b l ih => rw [List.map_cons,heldItems,ih,List.map_cons]

@[simp] theorem held_int (n : ℤ) : held (.int n) = .int n := rfl

@[simp] theorem pointer_null (d : Decoder α) (zero : α) (x : Option α) :
    (pointer d zero).into .null x = none := rfl

@[simp] theorem pointer_accepts_null (d : Decoder α) (zero : α) :
    (pointer d zero).accepts .null = true := rfl

@[simp] theorem pointer_into {v : Value} (h : v ≠ .null) (d : Decoder α) (zero : α)
    (x : Option α) : (pointer d zero).into v x = some (d.into v (x.getD zero)) := by
  cases v <;> first | rfl | exact absurd rfl h

@[simp] theorem pointer_accepts {v : Value} (h : v ≠ .null) (d : Decoder α) (zero : α) :
    (pointer d zero).accepts v = d.accepts v := by
  cases v <;> first | rfl | exact absurd rfl h

theorem decodeInto_new {β : Type} {d : Decoder α} {zero : α} {write : β → Value} {seen : β → α}
    (h : ∀ b, d.into (write b) zero = seen b) (l : List β) :
    decodeInto d zero (l.map write) [] = l.map seen := by
  induction l with
  | nil => rfl
  | cons b l ih => simp [decodeInto,h,ih]

theorem put_new {m : List (String × α)} {key : String} (h : key ∉ m.map Prod.fst) (a : α) :
    put m key a = m++[(key,a)] := by
  induction m with
  | nil => rfl
  | cons e m ih =>
    obtain ⟨k,b⟩ := e
    simp only [List.map_cons,List.mem_cons,not_or] at h
    rw [put,if_neg (Ne.symm h.1),ih h.2]
    rfl

/-- A map whose names differ is read as it is written. -/
theorem foldl_put {d : Decoder α} {zero : α} {write : α → Value}
    (h : ∀ a, d.into (write a) zero = a) {l : List (String × α)} {m : List (String × α)}
    (hn : ((m++l).map Prod.fst).Nodup) :
    (l.map fun e => (e.1,write e.2)).foldl (fun m e => put m e.1 (d.into e.2 zero)) m = m++l := by
  induction l generalizing m with
  | nil => simp
  | cons e l ih =>
    have hnew : e.1 ∉ m.map Prod.fst := by
      rw [List.map_append,List.map_cons] at hn
      exact fun hm => (List.nodup_append.mp hn).2.2 e.1 hm e.1 List.mem_cons_self rfl
    rw [List.map_cons,List.foldl_cons,h,put_new hnew,ih (by simpa using hn)]
    simp

end Written

end Whoisthat.MemberDecoding
