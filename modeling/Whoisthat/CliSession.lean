import Whoisthat.Protocol

/-!
# A command line session on the shared channel of the core

The core sends the answer to a request to every client, marked with the id of the
request. A session reads the frames one by one, collects the warnings on its own
request and takes the first frame that its command waits for. What a whole script
of requests sees of the channel is a part of the frames that is fixed in advance.
-/

set_option autoImplicit false

namespace Whoisthat.CliSession
open Whoisthat.Json Whoisthat.WireRecords Whoisthat.Protocol
open Structs (Warning)

section Model

variable {T : Type}

inductive Reply where
  | id (expect fatalWarns : List String)
  | broadcast (pred : TcpMessage → Bool) (fatalWarns : List String)

/-- A request that was sent and the reply its command waits for; `decode` is
`serde_json::from_value` at the type of the reply. -/
structure Ask (T : Type) where
  id : String
  reply : Reply
  decode : Value → Option T

/-- What `recv` returns under the timeout of the session. -/
inductive Arrival where
  | frame (m : TcpMessage)
  | timeout
  | io (error : String)

inductive CliError where
  | timeout (text : String)
  | core (text : String)
  | io (error : String)
  | json

def Reply.fatalWarns : Reply → List String
  | .id _ fatalWarns => fatalWarns
  | .broadcast _ fatalWarns => fatalWarns

/-- The warning in a `warn` frame on this request. -/
def ownWarning (id : String) (m : TcpMessage) : Option Warning :=
  if m.id = some id then record deserializeWarning m.data else none

def Ask.matched (k : Ask T) (m : TcpMessage) : Bool :=
  match k.reply with
  | .id expect _ => m.id = some k.id && expect.contains m.msg
  | .broadcast pred _ => pred m

/-- `Session::wait`: the reply, the warnings so far and what is still unread. -/
def wait (k : Ask T) : List Arrival → List Warning →
    Except CliError T × List Warning × List Arrival
  | [],ws => (.error (.io "unexpected end of file"),ws,[])
  | .timeout::rest,ws => (.error (.timeout ("waiting for reply to '"++k.id++"'")),ws,rest)
  | .io e::rest,ws => (.error (.io e),ws,rest)
  | .frame m::rest,ws =>
    if m.msg = "warn" then
      match ownWarning k.id m with
      | some w =>
        if k.reply.fatalWarns.contains w.key then (.error (.core w.content),ws,rest)
        else wait k rest (ws++[w])
      | none => wait k rest ws
    else if k.matched m then ((k.decode m.data).elim (.error .json) .ok,ws,rest)
    else wait k rest ws

/-- A command: its requests one after the other, up to the first error. -/
def script : List (Ask T) → List Arrival → List Warning → List (Except CliError T) × List Warning
  | [],_,ws => ([],ws)
  | k::ks,items,ws =>
    match wait k items ws with
    | (.ok t,ws',rest) =>
      let later := script ks rest ws'
      (.ok t::later.1,later.2)
    | (.error e,ws',_) => ([.error e],ws')

end Model

section Noninterference

variable {T : Type}

/-- The frame is a warning on the request or what its command waits for. -/
def Ask.hears (k : Ask T) (m : TcpMessage) : Bool :=
  if m.msg = "warn" then (ownWarning k.id m).isSome else k.matched m

def Ask.keeps (k : Ask T) : Arrival → Bool
  | .frame m => k.hears m
  | _ => true

def heard (ks : List (Ask T)) (a : Arrival) : Bool := ks.any fun k => k.keeps a

/-- Leaving out frames that a wait does not hear leaves its outcome as it is. -/
theorem wait_filter (k : Ask T) (keep : Arrival → Bool) (hk : ∀ a, k.keeps a = true → keep a = true)
    (items : List Arrival) (ws : List Warning) :
    wait k (items.filter keep) ws =
      ((wait k items ws).1,(wait k items ws).2.1,(wait k items ws).2.2.filter keep) := by
  induction items generalizing ws with
  | nil => rfl
  | cons a items ih =>
    by_cases ha : keep a = true
    · rw [List.filter_cons_of_pos ha]
      cases a with
      | timeout => rfl
      | io e => rfl
      | frame m =>
        simp only [wait]
        split_ifs
        · cases ownWarning k.id m with
          | none => exact ih ws
          | some w =>
            simp only []
            split_ifs
            · rfl
            · exact ih _
        · rfl
        · exact ih ws
    · rw [List.filter_cons_of_neg ha,ih ws]
      have hdeaf : k.keeps a = false := by
        by_contra hne
        exact ha (hk a (by simpa using hne))
      cases a with
      | timeout => simp [Ask.keeps] at hdeaf
      | io e => simp [Ask.keeps] at hdeaf
      | frame m =>
        simp only [Ask.keeps,Ask.hears] at hdeaf
        simp only [wait]
        split_ifs at hdeaf ⊢
        · rw [Option.isSome_eq_false_iff,Option.isNone_iff_eq_none] at hdeaf
          simp [hdeaf]
        · exact absurd hdeaf (by simpa)
        · rfl

theorem script_filter (ks : List (Ask T)) (keep : Arrival → Bool)
    (hk : ∀ k ∈ ks, ∀ a, k.keeps a = true → keep a = true) (items : List Arrival)
    (ws : List Warning) : script ks (items.filter keep) ws = script ks items ws := by
  induction ks generalizing items ws with
  | nil => rfl
  | cons k ks ih =>
    have hrest := ih fun k' hk' => hk k' (List.mem_cons_of_mem _ hk')
    simp only [script,wait_filter k keep (hk k List.mem_cons_self)]
    obtain ⟨result,ws',rest⟩ := wait k items ws
    cases result with
    | ok t => simp [hrest]
    | error e => rfl

end Noninterference

section Soundness

variable {T : Type}

/-- A warning on a request of the script that does not end it. -/
def Noted (ks : List (Ask T)) (items : List Arrival) (w : Warning) : Prop :=
  ∃ k ∈ ks, ∃ m, .frame m ∈ items ∧ m.msg = "warn" ∧ ownWarning k.id m = some w ∧
    w.key ∉ k.reply.fatalWarns

/-- A value in a frame that a request of the script waits for. -/
def Answered (ks : List (Ask T)) (items : List Arrival) (t : T) : Prop :=
  ∃ k ∈ ks, ∃ m, .frame m ∈ items ∧ m.msg ≠ "warn" ∧ k.matched m = true ∧ k.decode m.data = some t

theorem Noted.mono {ks ks' : List (Ask T)} {items items' : List Arrival} {w : Warning}
    (h : Noted ks items w) (hk : ks ⊆ ks') (hi : items ⊆ items') : Noted ks' items' w := by
  obtain ⟨k,hmem,m,hm,hrest⟩ := h
  exact ⟨k,hk hmem,m,hi hm,hrest⟩

theorem Answered.mono {ks ks' : List (Ask T)} {items items' : List Arrival} {t : T}
    (h : Answered ks items t) (hk : ks ⊆ ks') (hi : items ⊆ items') : Answered ks' items' t := by
  obtain ⟨k,hmem,m,hm,hrest⟩ := h
  exact ⟨k,hk hmem,m,hi hm,hrest⟩

theorem wait_rest (k : Ask T) (items : List Arrival) (ws : List Warning) :
    (wait k items ws).2.2 ⊆ items := by
  induction items generalizing ws with
  | nil => exact List.Subset.refl _
  | cons a items ih =>
    have hcons : ∀ ws', (wait k items ws').2.2 ⊆ a::items := fun ws' =>
      List.Subset.trans (ih ws') (List.subset_cons_self _ _)
    cases a with
    | timeout => exact List.subset_cons_self _ _
    | io e => exact List.subset_cons_self _ _
    | frame m =>
      simp only [wait]
      split_ifs
      · cases ownWarning k.id m with
        | none => exact hcons ws
        | some w =>
          simp only []
          split_ifs
          · exact List.subset_cons_self _ _
          · exact hcons _
      · exact List.subset_cons_self _ _
      · exact hcons ws

theorem wait_notes (k : Ask T) (items : List Arrival) (ws : List Warning) :
    ∃ notes, (wait k items ws).2.1 = ws++notes ∧ ∀ w ∈ notes, Noted [k] items w := by
  induction items generalizing ws with
  | nil => exact ⟨[],by simp [wait],by simp⟩
  | cons a items ih =>
    have hskip : ∃ notes, (wait k items ws).2.1 = ws++notes ∧ ∀ w ∈ notes, Noted [k] (a::items) w := by
      obtain ⟨notes,he,hn⟩ := ih ws
      exact ⟨notes,he,fun w hw => (hn w hw).mono (List.Subset.refl _) (List.subset_cons_self _ _)⟩
    cases a with
    | timeout => exact ⟨[],by simp [wait],by simp⟩
    | io e => exact ⟨[],by simp [wait],by simp⟩
    | frame m =>
      simp only [wait]
      split_ifs with hwarn hm
      · cases how : ownWarning k.id m with
        | none => exact hskip
        | some w =>
          simp only []
          split_ifs with hfatal
          · exact ⟨[],by simp,by simp⟩
          · obtain ⟨notes,he,hn⟩ := ih (ws++[w])
            refine ⟨w::notes,by rw [he]; simp,fun v hv => ?_⟩
            rcases List.mem_cons.mp hv with rfl | hv
            · exact ⟨k,List.mem_singleton_self k,m,List.mem_cons_self,hwarn,how,by simpa using hfatal⟩
            · exact (hn v hv).mono (List.Subset.refl _) (List.subset_cons_self _ _)
      · exact ⟨[],by simp,by simp⟩
      · exact hskip

theorem wait_answer (k : Ask T) (items : List Arrival) (ws : List Warning) {t : T}
    (h : (wait k items ws).1 = .ok t) : Answered [k] items t := by
  induction items generalizing ws with
  | nil => simp [wait] at h
  | cons a items ih =>
    have hskip : ∀ ws', (wait k items ws').1 = .ok t → Answered [k] (a::items) t := fun ws' h' =>
      (ih ws' h').mono (List.Subset.refl _) (List.subset_cons_self _ _)
    cases a with
    | timeout => simp [wait] at h
    | io e => simp [wait] at h
    | frame m =>
      simp only [wait] at h
      split_ifs at h with hwarn hm
      · cases how : ownWarning k.id m with
        | none =>
          rw [how] at h
          exact hskip ws h
        | some w =>
          rw [how] at h
          simp only [] at h
          split_ifs at h
          exact hskip _ h
      · cases hd : k.decode m.data with
        | none => simp [hd] at h
        | some u =>
          simp only [hd,Option.elim_some,Except.ok.injEq] at h
          subst h
          exact ⟨k,List.mem_singleton_self k,m,List.mem_cons_self,hwarn,hm,hd⟩
      · exact hskip ws h

theorem script_notes (ks : List (Ask T)) (items : List Arrival) (ws : List Warning) :
    ∃ notes, (script ks items ws).2 = ws++notes ∧ ∀ w ∈ notes, Noted ks items w := by
  induction ks generalizing items ws with
  | nil => exact ⟨[],by simp [script],by simp⟩
  | cons k ks ih =>
    obtain ⟨notes,he,hn⟩ := wait_notes k items ws
    have hrest := wait_rest k items ws
    have hfirst : ∀ w ∈ notes, Noted (k::ks) items w := fun w hw =>
      (hn w hw).mono (by simp) (List.Subset.refl _)
    simp only [script]
    generalize wait k items ws = out at he hrest
    obtain ⟨result,ws',rest⟩ := out
    cases result with
    | error e => exact ⟨notes,he,hfirst⟩
    | ok t =>
      obtain ⟨more,he',hn'⟩ := ih rest ws'
      refine ⟨notes++more,?_,fun w hw => ?_⟩
      · show (script ks rest ws').2 = _
        rw [he',show ws' = ws++notes from he,List.append_assoc]
      · rcases List.mem_append.mp hw with hw | hw
        · exact hfirst w hw
        · exact (hn' w hw).mono (List.subset_cons_self _ _) hrest

theorem script_answers (ks : List (Ask T)) (items : List Arrival) (ws : List Warning) {t : T}
    (h : .ok t ∈ (script ks items ws).1) : Answered ks items t := by
  induction ks generalizing items ws with
  | nil => simp [script] at h
  | cons k ks ih =>
    have hone := wait_answer k items ws (t := t)
    have hrest := wait_rest k items ws
    simp only [script] at h
    generalize wait k items ws = out at h hone hrest
    obtain ⟨result,ws',rest⟩ := out
    cases result with
    | error e => simp at h
    | ok u =>
      rcases List.mem_cons.mp h with h | h
      · exact (hone h.symm).mono (by simp) (List.Subset.refl _)
      · exact (ih rest ws' h).mono (List.subset_cons_self _ _) hrest

/-- On a channel that it shares with other clients and with the broadcasts of the core
a session comes out as if the frames it does not hear had never been sent: frames
without an id of its own are heard only where a command waits for a broadcast. What
it returns was sent in answer to its requests, and so was every warning it shows. -/
theorem session_alone (ks : List (Ask T)) (items others : List Arrival) (ws : List Warning)
    (h : items.filter (heard ks) = others.filter (heard ks)) :
    script ks items ws = script ks others ws ∧
      (∀ m, heard ks (.frame m) = true → (∃ k ∈ ks, m.id = some k.id) ∨
        ∃ k ∈ ks, ∃ pred fatal, k.reply = .broadcast pred fatal ∧ pred m = true) ∧
      (∀ t, .ok t ∈ (script ks items ws).1 → Answered ks items t) ∧
      ∃ notes, (script ks items ws).2 = ws++notes ∧ ∀ w ∈ notes, Noted ks items w := by
  have hkeep : ∀ k ∈ ks, ∀ a, k.keeps a = true → heard ks a = true := fun k hk a ha =>
    List.any_eq_true.mpr ⟨k,hk,ha⟩
  refine ⟨?_,fun m hm => ?_,fun t => script_answers ks items ws,script_notes ks items ws⟩
  · rw [← script_filter ks (heard ks) hkeep items,h,script_filter ks (heard ks) hkeep others]
  · obtain ⟨k,hk,hears⟩ := List.any_eq_true.mp hm
    simp only [Ask.keeps,Ask.hears] at hears
    split_ifs at hears with hwarn
    · refine .inl ⟨k,hk,?_⟩
      by_contra hid
      simp [ownWarning,hid] at hears
    · unfold Ask.matched at hears
      cases hr : k.reply with
      | id expect fatal =>
        simp only [hr,Bool.and_eq_true,decide_eq_true_eq] at hears
        exact .inl ⟨k,hk,hears.1⟩
      | broadcast pred fatal =>
        simp only [hr] at hears
        exact .inr ⟨k,hk,pred,fatal,hr,hears⟩

end Soundness

section Sample

def ping : Ask String := ⟨"7-1-0",.id ["ok"] ["ping-failed"],fun v => some v.asString⟩

def foreign : Arrival := .frame ⟨"ok",.str "theirs",some "8-1-0"⟩

def answer : Arrival := .frame ⟨"ok",.str "ours",some "7-1-0"⟩

theorem session_alone_crowded :
    script [ping] [foreign,answer] [] = script [ping] [answer,foreign] [] ∧
      (∀ m, heard [ping] (.frame m) = true → (∃ k ∈ [ping], m.id = some k.id) ∨
        ∃ k ∈ [ping], ∃ pred fatal, k.reply = .broadcast pred fatal ∧ pred m = true) ∧
      (∀ t, .ok t ∈ (script [ping] [foreign,answer] []).1 → Answered [ping] [foreign,answer] t) ∧
      ∃ notes, (script [ping] [foreign,answer] []).2 = []++notes ∧
        ∀ w ∈ notes, Noted [ping] [foreign,answer] w :=
  session_alone [ping] [foreign,answer] [answer,foreign] [] (by rfl)

end Sample

end Whoisthat.CliSession
