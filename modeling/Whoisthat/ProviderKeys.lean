import Whoisthat.Numbering
import Whoisthat.SubscriptionParse

/-!
# Keys of the servers of a JSON subscription

A server is found again in the next refresh by its key: its remarks, or its
endpoint when it has none. Equal keys are numbered in order. A remark may look
like a numbered key, and then two servers can end up with one key.
-/

set_option autoImplicit false

namespace Whoisthat.ProviderKeys
open Whoisthat.Json Whoisthat.Numbering Whoisthat.SubscriptionParse

section Specification

/-- The usable entries of a body, with their keys as they are before numbering. -/
def entries (body : Option Value) : List ParsedProfile :=
  match body with
  | some (.arr items) => (items.mapIdx fun i raw => parseOne raw i).filterMap id
  | some (.obj fields) => (parseOne (.obj fields) 0).toList
  | _ => []

def baseKeys (body : Option Value) : List String := (entries body).map (·.providerKey)

/-- The entry at a place is the `n`-th with the base key. -/
def Nth (body : Option Value) (i : ℕ) (key : String) (n : ℕ) : Prop :=
  (baseKeys body)[i]? = some key ∧ ((baseKeys body).take i).count key+1 = n

/-- The key of the `n`-th entry with a base key. -/
def numbered (key : String × ℕ) : String :=
  if key.2 > 1 then key.1 ++ "#" ++ toString key.2 else key.1

/-- Every stored server is found in one entry at most, and in the next refresh
in the entry with the same base key and the same number. -/
structure Identifies (body : Option Value) (profiles : List ParsedProfile) : Prop where
  distinct : (profiles.map (·.providerKey)).Nodup
  stable : ∀ body' profiles', parse body' = .ok profiles' → ∀ i j key n, Nth body i key n →
    Nth body' j key n → profiles[i]?.map (·.providerKey) = profiles'[j]?.map (·.providerKey)

/-- No entry's own key is one that another entry gets by numbering. -/
def Unmistakable (body : Option Value) : Prop :=
  ∀ key n, 2 ≤ n → n ≤ (baseKeys body).count key →
    key ++ "#" ++ toString n ∉ baseKeys body

end Specification

section Names

theorem toString_digits (n : ℕ) : ∀ c ∈ (toString n).toList, c ≠ '#' := by
  intro c hc heq
  rw [Nat.toString_eq_ofList_toDigits,String.toList_ofList] at hc
  have hdigit := Nat.isDigit_of_mem_toDigits (by decide) (by decide) hc
  rw [heq] at hdigit
  exact absurd hdigit (by decide)

theorem toString_injective {m n : ℕ} (h : (toString m).toList = (toString n).toList) : m = n := by
  rw [Nat.toString_eq_ofList_toDigits,Nat.toString_eq_ofList_toDigits,String.toList_ofList,
    String.toList_ofList] at h
  have hnum := congrArg (fun ds => Nat.ofDigitChars 10 ds 0) h
  simpa only [Nat.ofDigitChars_ten_toDigits] using hnum

theorem last_mark {a b x y : List Char} (hx : '#' ∉ x) (hy : '#' ∉ y)
    (h : a ++ '#'::x = b ++ '#'::y) : a = b ∧ x = y := by
  rcases List.append_eq_append_iff.mp h with ⟨d,hb,hd⟩ | ⟨d,ha,hd⟩
  · cases d with
    | nil => exact ⟨by simpa using hb.symm,(List.cons.inj hd).2⟩
    | cons c d =>
      have hin : '#' ∈ x := by
        rw [(List.cons.inj hd).2]
        simp
      exact absurd hin hx
  · cases d with
    | nil => exact ⟨by simpa using ha,(List.cons.inj hd).2.symm⟩
    | cons c d =>
      have hin : '#' ∈ y := by
        rw [(List.cons.inj hd).2]
        simp
      exact absurd hin hy

theorem numbered_of_two {key : String} {n : ℕ} (h : 2 ≤ n) :
    numbered (key,n) = key ++ "#" ++ toString n := if_pos h

theorem toList_numbered (key : String) {n : ℕ} (h : 2 ≤ n) :
    (numbered (key,n)).toList = key.toList ++ '#'::(toString n).toList := by
  rw [numbered_of_two h,String.toList_append,String.toList_append,List.append_assoc]
  rfl

theorem numbered_one (key : String) : numbered (key,1) = key := rfl

theorem numbered_injective {k k' : String} {n m : ℕ} (hn : 2 ≤ n) (hm : 2 ≤ m)
    (h : numbered (k,n) = numbered (k',m)) : k = k' ∧ n = m := by
  have hlist := congrArg String.toList h
  rw [toList_numbered k hn,toList_numbered k' hm] at hlist
  obtain ⟨hkey,hnum⟩ := last_mark (fun hc => toString_digits n _ hc rfl)
    (fun hc => toString_digits m _ hc rfl) hlist
  exact ⟨String.toList_inj.mp hkey,toString_injective hnum⟩

theorem numbered_ne (key : String) {n : ℕ} (hn : 2 ≤ n) : numbered (key,n) ≠ key := by
  intro h
  have hlen := congrArg (fun s => s.toList.length) h
  simp only [toList_numbered key hn,List.length_append,List.length_cons] at hlen
  omega

/-- The names of numbered keys are distinct unless one is a key itself. -/
theorem nodup_numbered (keys : List String) :
    ((number [] keys).map numbered).Nodup ↔
      ∀ key n, 2 ≤ n → n ≤ keys.count key → key ++ "#" ++ toString n ∉ keys := by
  rw [nodup_names]
  constructor
  · intro h key n hn hcount hin
    have hone : 1 ≤ keys.count (key ++ "#" ++ toString n) := List.count_pos_iff.mpr hin
    have hsame := h key n _ 1 (by omega) hcount le_rfl hone
      ((numbered_of_two hn).trans (numbered_one _).symm)
    omega
  · intro h a n b m hn hna hm hmb hname
    rcases Nat.lt_or_ge 1 n with hn' | hn'
    · rcases Nat.lt_or_ge 1 m with hm' | hm'
      · exact numbered_injective hn' hm' hname
      · obtain rfl : m = 1 := by omega
        rw [numbered_one,numbered_of_two hn'] at hname
        exact absurd (hname ▸ List.count_pos_iff.mp hmb) (h a n hn' hna)
    · obtain rfl : n = 1 := by omega
      rcases Nat.lt_or_ge 1 m with hm' | hm'
      · rw [numbered_one,numbered_of_two hm'] at hname
        exact absurd (hname ▸ List.count_pos_iff.mp hna) (h b m hm' hmb)
      · obtain rfl : m = 1 := by omega
        exact ⟨hname,rfl⟩

end Names

section Parsing

theorem numberKeys_keys (seen : List String) (ps : List ParsedProfile) :
    (numberKeys seen ps).map (·.providerKey) =
      (number seen (ps.map (·.providerKey))).map numbered := by
  induction ps generalizing seen with
  | nil => rfl
  | cons p ps ih =>
    rw [numberKeys,List.map_cons,ih,List.map_cons,number,List.map_cons]
    refine congrArg (· :: _) ?_
    unfold numbered
    dsimp only
    split <;> rfl

theorem parse_keys {body : Option Value} {profiles : List ParsedProfile}
    (h : parse body = .ok profiles) :
    profiles.map (·.providerKey) = (number [] (baseKeys body)).map numbered := by
  unfold parse at h
  split at h
  · rename_i items
    simp only at h
    split at h
    · cases h
    · cases Except.ok.inj h
      exact numberKeys_keys [] _
  · rename_i fields
    cases hp : parseOne (.obj fields) 0 with
    | none => rw [hp] at h; cases h
    | some p =>
      rw [hp] at h
      cases Except.ok.inj h
      rw [baseKeys,entries,hp]
      rfl
  · cases h

theorem key_nth {body : Option Value} {profiles : List ParsedProfile}
    (h : parse body = .ok profiles) {i n : ℕ} {key : String} (hnth : Nth body i key n) :
    profiles[i]?.map (·.providerKey) = some (numbered (key,n)) := by
  obtain ⟨hkey,rfl⟩ := hnth
  rw [← List.getElem?_map,parse_keys h,List.getElem?_map,getElem_number,hkey]
  simp

/-- Servers are identified exactly if no remark reads like the numbered key of
another entry. -/
theorem identifies_iff (body : Option Value) (profiles : List ParsedProfile)
    (h : parse body = .ok profiles) : Identifies body profiles ↔ Unmistakable body := by
  have hdistinct : (profiles.map (·.providerKey)).Nodup ↔ Unmistakable body := by
    rw [parse_keys h]
    exact nodup_numbered (baseKeys body)
  constructor
  · exact fun hid => hdistinct.mp hid.distinct
  · intro hun
    refine ⟨hdistinct.mpr hun,fun body' profiles' h' i j key n hi hj => ?_⟩
    rw [key_nth h hi,key_nth h' hj]

/-- A subscription with a server for each of the remarks. -/
def remarked (remarks : List String) : Option Value :=
  some (.arr (remarks.map fun r => .obj [("remarks",.str r),
    ("outbounds",.arr [.obj [("protocol",.str "vless")]])]))

theorem two_remarks_identified : ∃ profiles, parse (remarked ["A","A"]) = .ok profiles ∧
    Identifies (remarked ["A","A"]) profiles := by
  obtain ⟨profiles,hparse⟩ : ∃ profiles, parse (remarked ["A","A"]) = .ok profiles := ⟨_,rfl⟩
  refine ⟨profiles,hparse,(identifies_iff _ _ hparse).mpr fun key n hn _ hin => ?_⟩
  have hkeys : baseKeys (remarked ["A","A"]) = ["A","A"] := by decide
  rw [hkeys] at hin
  have hA : key ++ "#" ++ toString n = "A" := by simpa using hin
  have hmark : '#' ∈ "A".toList := by
    rw [← hA,String.toList_append,String.toList_append]
    simp
  exact absurd hmark (by decide)

/-- The third server has the key the second gets. -/
theorem numbered_remark_collides : ¬∀ body profiles, parse body = .ok profiles →
    Identifies body profiles := by
  intro h
  have hdistinct := (h (remarked ["A","A","A#2"]) _ rfl).distinct
  exact absurd hdistinct (by decide)

end Parsing

end Whoisthat.ProviderKeys
