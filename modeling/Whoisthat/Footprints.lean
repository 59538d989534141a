import Whoisthat.SessionRouting

/-!
# What an operation may write and remove

`Effects W D w u` says that `u` comes from `w` by writes that `W` allows and
removals that `D` allows. The routing of a group stays what it was under effects
that are apart from the files it is read from.
-/

set_option autoImplicit false

namespace Whoisthat.Footprints
open Whoisthat.FileStore Whoisthat.FallibleState Whoisthat.Records Whoisthat.Database
open Whoisthat.GroupFiles Whoisthat.RoutingStore Whoisthat.FiledRecords
open Whoisthat.RoutingResolution Whoisthat.SessionRouting
open Whoisthat.CliRouting (listedRoutingAt)

section Stores

variable {κ β ι : Type} [DecidableEq κ] {name : κ → Option ι} {mk : ι → κ}

omit [DecidableEq κ] in
theorem filterMap_filter (hname : ∀ k i, name k = some i → k = mk i) (q : κ → Bool)
    (l : List κ) : (l.filter q).filterMap name = (l.filterMap name).filter fun i => q (mk i) := by
  induction l with
  | nil => rfl
  | cons k l ih =>
    cases hk : name k with
    | none => cases hq : q k <;> simp [hk,hq,ih]
    | some i =>
      obtain rfl := hname k i hk
      cases hq : q (mk i) <;> simp [hk,hq,ih]

theorem listing_erase (hname : ∀ k i, name k = some i → k = mk i) (k : κ) (s : Store κ β) :
    listing name (s.erase k) = (listing name s).filter fun i => mk i ≠ k := by
  unfold listing
  rw [AList.keys_erase,s.keys_nodup.erase_eq_filter,filterMap_filter hname]
  congr 1
  funext i
  rw [bne,Bool.beq_eq_decide_eq,decide_not]

theorem listing_insert_of_none {k : κ} (hk : name k = none) (b : β) (s : Store κ β) :
    listing name (s.insert k b) = listing name s := by
  have herase : ∀ l : List κ, (l.erase k).filterMap name = l.filterMap name := by
    intro l
    induction l with
    | nil => rfl
    | cons j l ih =>
      by_cases hj : j = k
      · subst hj
        simp [hk]
      · rw [List.erase_cons_tail (by simpa using hj),List.filterMap_cons,List.filterMap_cons,ih]
  unfold listing
  rw [AList.keys_insert,List.filterMap_cons_none hk,herase]

theorem keys_eraseAll (ks : List κ) (s : Store κ β) :
    (eraseAll ks s).keys = s.keys.filter fun k => k ∉ ks := by
  induction ks generalizing s with
  | nil => simp [eraseAll]
  | cons j ks ih =>
    have hstep : eraseAll (j::ks) s = eraseAll ks (s.erase j) := rfl
    rw [hstep,ih,AList.keys_erase,s.keys_nodup.erase_eq_filter,List.filter_filter]
    refine List.filter_congr fun k _ => ?_
    by_cases hk : k = j <;> simp [hk]

theorem listing_removeAll (hname : ∀ k i, name k = some i → k = mk i) (under : κ → Bool)
    (s : Store κ β) :
    listing name (removeAll under s) = (listing name s).filter fun i => !under (mk i) := by
  have hkeys : (removeAll under s).keys = s.keys.filter fun k => !under k := by
    rw [removeAll,keys_eraseAll]
    refine List.filter_congr fun k hk => ?_
    simp [hk]
  rw [listing,hkeys,filterMap_filter hname]
  rfl

end Stores

section Effects

inductive Effects (W : Path → Payload → Prop) (D : Path → Prop) (w : World) : World → Prop
  | start : Effects W D w w
  | same {u v : World} (h : Effects W D w u) (hs : SameFiles u v) : Effects W D w v
  | write {u : World} {path : Path} {p : Payload} (h : Effects W D w u) (hw : W path p) :
      Effects W D w (store path p u)
  | mkdir {u : World} (path : Path) (h : Effects W D w u) :
      Effects W D w { u with disk := mkdirFor path u.disk }
  | remove {u : World} {under : Path → Bool} (h : Effects W D w u)
      (hd : ∀ path, under path = true → D path) :
      Effects W D w { u with disk := removeAll under u.disk }
  | erase {u : World} {path : Path} (h : Effects W D w u) (hd : D path) :
      Effects W D w { u with disk := u.disk.erase path }

variable {W : Path → Payload → Prop} {D : Path → Prop} {w u : World}

theorem effects_root (h : Effects W D w u) : u.root = w.root := by
  induction h with
  | start => rfl
  | same h hs ih => exact hs.root.trans ih
  | write h hw ih => exact ih
  | mkdir path h ih => exact ih
  | remove h hd ih => exact ih
  | erase h hd ih => exact ih

theorem effects_key (h : Effects W D w u) : u.key = w.key := by
  induction h with
  | start => rfl
  | same h hs ih => exact hs.key.trans ih
  | write h hw ih => exact ih
  | mkdir path h ih => exact ih
  | remove h hd ih => exact ih
  | erase h hd ih => exact ih

theorem lookup_mkdirFor {path q : Path} (hp : ∀ gid, path ≠ .groupDir gid) (t : Tree) :
    (mkdirFor q t).lookup path = t.lookup path := by
  unfold mkdirFor
  split
  · rfl
  · split
    · rfl
    · rw [lookup_insert,if_neg (hp _)]

/-- A name nobody writes is as it was, or has been removed. -/
theorem effects_lookup (h : Effects W D w u) {path : Path} (hw : ∀ p, ¬W path p)
    (hp : ∀ gid, path ≠ .groupDir gid) :
    u.disk.lookup path = w.disk.lookup path ∨ (D path ∧ u.disk.lookup path = none) := by
  induction h with
  | start => exact .inl rfl
  | same h hs ih => rwa [hs.disk]
  | @write u q p h hq ih =>
    have hne : path ≠ q := fun he => hw p (he ▸ hq)
    simpa only [store,lookup_insert,hne,if_false,lookup_mkdirFor hp] using ih
  | mkdir q h ih => simpa only [lookup_mkdirFor hp] using ih
  | @remove u under h hd ih =>
    simp only [lookup_removeAll]
    split
    · rename_i hu
      exact .inr ⟨hd path hu,rfl⟩
    · exact ih
  | @erase u q h hd ih =>
    simp only [lookup_erase]
    split
    · rename_i he
      exact .inr ⟨he ▸ hd,rfl⟩
    · exact ih

theorem effects_stored {α : Type} (h : Effects W D w u) {path : Path} (hw : ∀ p, ¬W path p)
    (hd : ¬D path) (hp : ∀ gid, path ≠ .groupDir gid) (target : Payload → Option α) :
    stored path target u = stored path target w := by
  have hlook := (effects_lookup h hw hp).resolve_right fun hr => hd hr.1
  rw [stored,stored,fileAt,fileAt,readFile,readFile,hlook,effects_key h]

theorem effects_filed (hfits : ∀ path p, W path p → Fits path p) (h : Effects W D w u)
    (hw : Filed w) : Filed u := by
  induction h with
  | start => exact hw
  | same h hs ih => exact filed_of_files (fun path b hb => by rwa [hs.disk] at hb) ih
  | write h hq ih => exact filed_store (hfits _ _ hq) ih
  | mkdir q h ih =>
    exact filed_of_files (fun path b hb => by simpa [readFile_mkdirFor] using hb) ih
  | remove h hd ih =>
    refine filed_of_files (fun path b hb => ?_) ih
    simp only [readFile_removeAll] at hb
    split at hb
    · simp at hb
    · exact hb
  | erase h hd ih =>
    refine filed_of_files (fun path b hb => ?_) ih
    simp only [readFile_erase] at hb
    split at hb
    · simp at hb
    · exact hb

theorem listing_mkdirFor {ι : Type} {name : Path → Option ι}
    (hn : ∀ gid, name (.groupDir gid) = none) (path : Path) (t : Tree) :
    listing name (mkdirFor path t) = listing name t := by
  unfold mkdirFor
  split
  · rfl
  · split
    · rfl
    · exact listing_insert_of_none (hn _) _ _

/-- Names of one kind that nobody writes are listed as before, but for the
removed ones. -/
theorem effects_listing {ι : Type} {name : Path → Option ι} {mk : ι → Path}
    (h : Effects W D w u) (hname : ∀ path i, name path = some i → path = mk i)
    (hn : ∀ gid, name (.groupDir gid) = none) (hw : ∀ i p, ¬W (mk i) p) :
    ∃ keep : ι → Bool, listing name u.disk = (listing name w.disk).filter keep ∧
      ∀ i, keep i = false → D (mk i) := by
  have hwrite : ∀ {path p}, W path p → name path = none := by
    intro path p hp
    cases hi : name path with
    | none => rfl
    | some i => exact absurd (hname path i hi ▸ hp) (hw i p)
  induction h with
  | start => exact ⟨fun _ => true,by simp,fun _ h => nomatch h⟩
  | same h hs ih => rwa [hs.disk]
  | @write u path p h hp ih =>
    have hsame : listing name (store path p u).disk = listing name u.disk := by
      rw [store,listing_insert_of_none (hwrite hp),listing_mkdirFor hn]
    rwa [hsame]
  | mkdir path h ih =>
    simp only [listing_mkdirFor hn]
    exact ih
  | @remove u under h hd ih =>
    obtain ⟨keep,hl,hk⟩ := ih
    refine ⟨fun i => keep i && !under (mk i),?_,fun i hi => ?_⟩
    · rw [listing_removeAll hname,hl,List.filter_filter]
      congr 1
      funext i
      exact Bool.and_comm _ _
    · cases hki : keep i with
      | false => exact hk i hki
      | true => exact hd _ (by simpa [hki] using hi)
  | @erase u path h hd ih =>
    obtain ⟨keep,hl,hk⟩ := ih
    refine ⟨fun i => keep i && decide (mk i ≠ path),?_,fun i hi => ?_⟩
    · rw [listing_erase hname,hl,List.filter_filter]
      congr 1
      funext i
      exact Bool.and_comm _ _
    · cases hki : keep i with
      | false => exact hk i hki
      | true =>
        have he : mk i = path := by simpa [hki] using hi
        exact he ▸ hd

end Effects

section Assets

def assetFiles : List String := ["geoip.dat","geosite.dat"]

def AssetFree (path : Path) : Prop := ∀ file ∈ assetFiles, path.components.getLast? ≠ some file

theorem numeral_chars (n : ℤ) : ∀ c ∈ (toString n).toList, c = '-' ∨ c.isDigit := by
  have hnat : ∀ m : ℕ, ∀ c ∈ (toString m).toList, c.isDigit := by
    intro m c hc
    rw [Nat.toString_eq_ofList_toDigits,String.toList_ofList] at hc
    exact Nat.isDigit_of_mem_toDigits (by decide) (by decide) hc
  cases n with
  | ofNat m => exact fun c hc => .inr (hnat m c hc)
  | negSucc m =>
    intro c hc
    have htext : toString (Int.negSucc m) = "-" ++ toString (m+1) := rfl
    rw [htext,String.toList_append] at hc
    rcases List.mem_append.mp hc with hc | hc
    · exact .inl (by simpa using hc)
    · exact .inr (hnat _ c hc)

theorem numeral_ne {n : ℤ} {file : String} (h : 'g' ∈ file.toList) : toString n ≠ file := by
  rintro rfl
  rcases numeral_chars n 'g' h with h | h <;> exact absurd h (by decide)

theorem json_ne {stem file : String} (h : file.toList.getLast? = some 't') :
    stem ++ ".json" ≠ file := by
  rintro rfl
  rw [String.toList_append,List.getLast?_append] at h
  have hlast : ".json".toList.getLast? = some 'n' := by decide
  rw [hlast] at h
  exact absurd (Option.some.inj h) (by decide)

theorem assetFree_groupDir (gid : ℤ) : AssetFree (.groupDir gid) := by
  intro file hf
  have hg : 'g' ∈ file.toList := by
    simp only [assetFiles,List.mem_cons,List.not_mem_nil,or_false] at hf
    rcases hf with rfl | rfl <;> decide
  intro h
  exact numeral_ne hg (Option.some.inj h)

theorem assetFree_json {path : Path} {stem : String}
    (h : path.components.getLast? = some (stem ++ ".json")) : AssetFree path := by
  intro file hf
  have ht : file.toList.getLast? = some 't' := by
    simp only [assetFiles,List.mem_cons,List.not_mem_nil,or_false] at hf
    rcases hf with rfl | rfl <;> decide
  rw [h]
  exact fun he => json_ne ht (Option.some.inj he)

theorem existsAt_iff {target : List String} {w : World} :
    existsAt target w = true ↔
      ∃ path, (w.disk.lookup path).isSome ∧ w.root ++ path.components = target := by
  simp only [existsAt,List.any_eq_true,decide_eq_true_eq,← AList.mem_keys,AList.lookup_isSome]

variable {W : Path → Payload → Prop} {D : Path → Prop} {w u : World} {dir : List String}
  {file : String}

theorem components_ne {path : Path} (h : AssetFree path) (hf : file ∈ assetFiles)
    (root : List String) : root ++ path.components ≠ dir ++ [file] := by
  intro he
  have hlast := congrArg List.getLast? he
  rw [List.getLast?_concat,List.getLast?_append] at hlast
  cases hc : path.components.getLast? with
  | none => cases path <;> simp [Path.components] at hc
  | some last =>
    rw [hc] at hlast
    exact h file hf (hc.trans hlast)

/-- No effect makes a geo file. -/
theorem asset_of_effects (h : Effects W D w u) (hw : ∀ path p, W path p → AssetFree path)
    (hf : file ∈ assetFiles) (he : existsAt (dir ++ [file]) u = true) :
    existsAt (dir ++ [file]) w = true := by
  obtain ⟨path,hp,ht⟩ := existsAt_iff.mp he
  rw [effects_root h] at ht
  have hwrite : ∀ p, ¬W path p := fun p hp => components_ne (hw path p hp) hf _ ht
  have hdir : ∀ gid, path ≠ .groupDir gid := by
    rintro gid rfl
    exact components_ne (assetFree_groupDir gid) hf _ ht
  rcases effects_lookup h hwrite hdir with hl | ⟨-,hl⟩
  · exact existsAt_iff.mpr ⟨path,by rwa [← hl],ht⟩
  · rw [hl] at hp
    simp at hp

theorem asset_spared (h : Effects W D w u) (hw : ∀ path p, W path p → AssetFree path)
    (hf : file ∈ assetFiles) (hd : ∀ path, w.root ++ path.components = dir ++ [file] → ¬D path)
    (he : existsAt (dir ++ [file]) w = true) : existsAt (dir ++ [file]) u = true := by
  obtain ⟨path,hp,ht⟩ := existsAt_iff.mp he
  have hwrite : ∀ p, ¬W path p := fun p hp => components_ne (hw path p hp) hf _ ht
  have hdir : ∀ gid, path ≠ .groupDir gid := by
    rintro gid rfl
    exact components_ne (assetFree_groupDir gid) hf _ ht
  rcases effects_lookup h hwrite hdir with hl | ⟨hdp,-⟩
  · exact existsAt_iff.mpr ⟨path,by rwa [hl],by rw [effects_root h]; exact ht⟩
  · exact absurd hdp (hd path ht)

end Assets

section Sorting

variable {α β : Type} {r : α → α → Prop} [DecidableRel r]

theorem orderedInsert_first {a : α} {l : List α} (h : ∀ b ∈ l, r a b) :
    l.orderedInsert r a = a::l := by
  cases l with
  | nil => rfl
  | cons b l => rw [List.orderedInsert_cons,if_pos (h b (by simp))]

theorem filter_orderedInsert [IsTrans α r] (q : α → Bool) (a : α) {l : List α}
    (hl : l.Pairwise r) :
    (l.orderedInsert r a).filter q =
      if q a then (l.filter q).orderedInsert r a else l.filter q := by
  induction l with
  | nil => cases hq : q a <;> simp [hq]
  | cons b l ih =>
    obtain ⟨hb,hl'⟩ := List.pairwise_cons.mp hl
    by_cases hab : r a b
    · have hall : ∀ c ∈ (b::l).filter q, r a c := by
        intro c hc
        rcases List.mem_cons.mp (List.mem_filter.mp hc).1 with rfl | hc
        · exact hab
        · exact IsTrans.trans a b c hab (hb c hc)
      rw [List.orderedInsert_cons,if_pos hab,orderedInsert_first hall,List.filter_cons]
    · rw [List.orderedInsert_cons,if_neg hab,List.filter_cons,ih hl',List.filter_cons]
      cases hqb : q b <;> cases hqa : q a <;> simp [List.orderedInsert_cons,hab]

/-- A stable sort keeps the order of what is left. -/
theorem filter_insertionSort [IsTrans α r] [Std.Total r] (q : α → Bool) (l : List α) :
    (l.insertionSort r).filter q = (l.filter q).insertionSort r := by
  induction l with
  | nil => rfl
  | cons a l ih =>
    rw [List.insertionSort_cons,filter_orderedInsert q a (List.pairwise_insertionSort r l),ih,
      List.filter_cons]
    cases q a <;> rfl

/-- Dropping elements that yield nothing new leaves the first result. -/
theorem findSome?_filter {f f' : α → Option β} {keep : α → Bool} {l : List α}
    (hnone : ∀ a ∈ l, f a = none → f' a = none)
    (hfound : ∀ a, l.find? (fun a => (f a).isSome) = some a → keep a = true ∧ f' a = f a) :
    (l.filter keep).findSome? f' = l.findSome? f := by
  induction l with
  | nil => rfl
  | cons a l ih =>
    cases hf : f a with
    | some b =>
      obtain ⟨hk,hf'⟩ := hfound a (by simp [hf])
      simp [hk,hf,hf']
    | none =>
      have hf' := hnone a (by simp) hf
      have hrest := ih (fun c hc => hnone c (by simp [hc])) fun c hc =>
        hfound c (by simpa [hf] using hc)
      cases hk : keep a <;> simpa [hk,hf,hf'] using hrest

end Sorting

section Feeding

/-- The fields of a group its routing depends on. -/
def routed (g : Group) : String × String × String :=
  (g.routingMode,g.manualRoutingMode,g.activeRoutingProfileId)

def sortedPairs (w : World) (gid : ℤ) : List (String × RoutingProfile) :=
  ((listing (routingProfileName gid) w.disk).filterMap fun id =>
    (storedRoutingProfile w gid id).map (Prod.mk id)).insertionSort
      fun a b => routingProfileBefore a.2 b.2

/-- The listed profile whose geo files a managed profile uses, if not those of
the active one. -/
def chosenAt (w : World) (gid : ℤ) (g : Group) : Option (String × RoutingProfile) :=
  if (activeGeoAt w gid g.activeRoutingProfileId).isSome then none
  else (sortedPairs w gid).find? fun e => (geoAt w e.2).isSome

variable (w : World) (gid : ℤ) (managed : Bool)

/-- The Happ profiles the routing of a connected profile takes something from. -/
inductive Applied : RoutingProfile → Prop
  | active (g : Group) (p : RoutingProfile) (hg : storedGroup w gid = some g)
      (hp : storedRoutingProfile w gid g.activeRoutingProfileId = some p) : Applied p
  | chosen (g : Group) (id : String) (p : RoutingProfile) (hm : managed = true)
      (hg : storedGroup w gid = some g) (h : chosenAt w gid g = some (id,p)) : Applied p

/-- The files the routing of a connected profile is read from. -/
inductive Feeds : Path → Prop
  | group : Feeds (.groupConfig gid)
  | rules : Feeds (rulesPath w gid)
  | active (g : Group) (hg : storedGroup w gid = some g) :
      Feeds (.routingProfile gid g.activeRoutingProfileId)
  | chosen (g : Group) (id : String) (p : RoutingProfile) (hm : managed = true)
      (hg : storedGroup w gid = some g) (h : chosenAt w gid g = some (id,p)) :
      Feeds (.routingProfile gid id)
  | asset (p : RoutingProfile) (file : String) (path : Path) (hp : Applied w gid managed p)
      (hf : file ∈ assetFiles) (h : w.root ++ path.components = joinPath w.root p.geoDir ++ [file]) :
      Feeds path

/-- Writes and removals that leave those files as they are. -/
structure Apart (W : Path → Payload → Prop) (D : Path → Prop) : Prop where
  group : ∀ p, W (.groupConfig gid) p → ∃ g g', p = .group g' ∧ storedGroup w gid = some g ∧
    routed g' = routed g
  rules : ∀ p, ¬W (rulesPath w gid) p
  profiles : ∀ id p, ¬W (.routingProfile gid id) p
  assets : ∀ path p, W path p → AssetFree path
  spared : ∀ path, D path → ¬Feeds w gid managed path

end Feeding

section Framing

variable {W : Path → Payload → Prop} {D : Path → Prop} {w u : World} {gid : ℤ} {managed : Bool}

instance : IsTrans (String × RoutingProfile) fun a b => routingProfileBefore a.2 b.2 where
  trans a b c hab hbc := by
    unfold routingProfileBefore at *
    rcases hab with hab | ⟨hab,hn⟩ <;> rcases hbc with hbc | ⟨hbc,hn'⟩
    · exact .inl (hab.trans hbc)
    · exact .inl (hbc ▸ hab)
    · exact .inl (hab ▸ hbc)
    · exact .inr ⟨hab.trans hbc,le_trans hn hn'⟩

instance : Std.Total fun a b : String × RoutingProfile => routingProfileBefore a.2 b.2 where
  total a b := by
    unfold routingProfileBefore
    rcases lt_trichotomy a.2.createdAt b.2.createdAt with h | h | h
    · exact .inl (.inl h)
    · rcases le_total a.2.name b.2.name with hn | hn
      · exact .inl (.inr ⟨h,hn⟩)
      · exact .inr (.inr ⟨h.symm,hn⟩)
    · exact .inr (.inl h)

theorem listed_sorted (w : World) (gid : ℤ) :
    listedRoutingAt gid w.disk w.key = (sortedPairs w gid).map Prod.snd := by
  rw [sortedPairs,List.map_insertionSort _ routingProfileBefore]
  · rfl
  · exact fun _ _ _ _ => Iff.rfl

theorem storedGroup_store {g : Group} : storedGroup (store (.groupConfig gid) (.group g) u) gid =
    some g := by
  rw [storedGroup,groupAt,fileAt,readFile_store,if_pos rfl]
  simp [openBlob,Payload.asGroup,store]

theorem effects_routed (h : Effects W D w u)
    (hw : ∀ p, W (.groupConfig gid) p → ∃ g g', p = .group g' ∧ storedGroup w gid = some g ∧
      routed g' = routed g) (hd : ¬D (.groupConfig gid)) :
    (storedGroup u gid).map routed = (storedGroup w gid).map routed := by
  induction h with
  | start => rfl
  | same h hs ih => rwa [storedGroup,hs.disk,hs.key]
  | @write u path p h hp ih =>
    by_cases hpath : path = .groupConfig gid
    · subst hpath
      obtain ⟨g,g',rfl,hg,hr⟩ := hw p hp
      rw [storedGroup_store,hg,Option.map_some,Option.map_some,hr]
    · have hfile : readFile (.groupConfig gid) (store path p u).disk =
          readFile (.groupConfig gid) u.disk := by
        rw [readFile_store,if_neg (Ne.symm hpath)]
      rw [← ih,storedGroup,storedGroup,groupAt,fileAt,fileAt,hfile]
      rfl
  | mkdir path h ih =>
    rw [← ih,storedGroup,storedGroup,groupAt,fileAt,fileAt,readFile_mkdirFor]
  | @remove u under h hu ih =>
    have hkeep : under (.groupConfig gid) = false := by
      cases hg : under (.groupConfig gid) with
      | false => rfl
      | true => exact absurd (hu _ hg) hd
    rw [← ih,storedGroup,storedGroup,groupAt,fileAt,fileAt,readFile_removeAll,hkeep]
    rfl
  | @erase u path h hp ih =>
    have hne : Path.groupConfig gid ≠ path := fun he => hd (he ▸ hp)
    rw [← ih,storedGroup,storedGroup,groupAt,fileAt,fileAt,readFile_erase,if_neg hne]

theorem effects_routingProfile (h : Effects W D w u) (ha : Apart w gid managed W D) (id : String) :
    storedRoutingProfile u gid id = storedRoutingProfile w gid id ∨
      (D (.routingProfile gid id) ∧ storedRoutingProfile u gid id = none) := by
  rcases effects_lookup h (ha.profiles id) (fun _ he => nomatch he) with hl | ⟨hd,hl⟩
  · refine .inl ?_
    rw [storedRoutingProfile,storedRoutingProfile,stored,stored,fileAt,fileAt,readFile,readFile,hl,
      effects_key h]
  · refine .inr ⟨hd,?_⟩
    rw [storedRoutingProfile,stored,fileAt,readFile,hl]
    rfl

theorem routingProfile_spared (h : Effects W D w u) (ha : Apart w gid managed W D) {id : String}
    (hf : Feeds w gid managed (.routingProfile gid id)) :
    storedRoutingProfile u gid id = storedRoutingProfile w gid id :=
  (effects_routingProfile h ha id).resolve_right fun hr => ha.spared _ hr.1 hf

theorem geoPresent_of_effects (h : Effects W D w u) (ha : Apart w gid managed W D)
    {p : RoutingProfile} (hp : GeoPresent u p) : GeoPresent w p := fun hg file hf => by
  rw [← effects_root h]
  refine asset_of_effects h ha.assets hf ?_
  rw [effects_root h]
  exact effects_root h ▸ hp hg file hf

theorem geoPresent_spared (h : Effects W D w u) (ha : Apart w gid managed W D)
    {p : RoutingProfile} (hp : Applied w gid managed p) :
    GeoPresent u p ↔ GeoPresent w p := by
  refine ⟨geoPresent_of_effects h ha,fun hw hg file hf => ?_⟩
  rw [effects_root h]
  refine asset_spared h ha.assets hf (fun path ht hd => ?_) (hw hg file hf)
  exact ha.spared path hd (.asset p file path hp hf ht)

theorem profileGeoDir_of_effects (h : Effects W D w u) (p : RoutingProfile) :
    profileGeoDir u p = profileGeoDir w p := by
  rw [profileGeoDir,profileGeoDir,effects_root h]

theorem geoAt_of_effects (h : Effects W D w u) (ha : Apart w gid managed W D)
    {p : RoutingProfile} (hp : geoAt w p = none) : geoAt u p = none := by
  unfold geoAt at hp ⊢
  rw [profileGeoDir_of_effects h]
  by_cases hu : GeoPresent u p
  · rw [if_pos hu]
    rwa [if_pos (geoPresent_of_effects h ha hu)] at hp
  · rw [if_neg hu]

theorem geoAt_spared (h : Effects W D w u) (ha : Apart w gid managed W D) {p : RoutingProfile}
    (hp : Applied w gid managed p) : geoAt u p = geoAt w p := by
  rw [geoAt,geoAt,profileGeoDir_of_effects h]
  simp only [geoPresent_spared h ha hp]

variable {g g' : Group}

theorem usable_of_effects (h : Effects W D w u) (ha : Apart w gid managed W D)
    (hg : storedGroup w gid = some g) (hr : routed g' = routed g) :
    usableProfile u gid g' = usableProfile w gid g := by
  have hactive : g'.activeRoutingProfileId = g.activeRoutingProfileId :=
    congrArg (fun r => r.2.2) hr
  have hstored := routingProfile_spared h ha (.active g hg)
  unfold storedRoutingProfile at hstored
  unfold usableProfile
  rw [hactive,hstored]
  split
  · rfl
  · cases hp : stored (.routingProfile gid g.activeRoutingProfileId)
        Payload.asRoutingProfile w with
    | none => rfl
    | some p =>
      have hgeo := geoPresent_spared h ha (.active g p hg hp)
      simp only [Option.filter,hgeo]

theorem activeGeo_of_effects (h : Effects W D w u) (ha : Apart w gid managed W D)
    (hg : storedGroup w gid = some g) :
    activeGeoAt u gid g.activeRoutingProfileId = activeGeoAt w gid g.activeRoutingProfileId := by
  unfold activeGeoAt
  split
  · rfl
  · rw [routingProfile_spared h ha (.active g hg)]
    cases hp : storedRoutingProfile w gid g.activeRoutingProfileId with
    | none => rfl
    | some p => exact geoAt_spared h ha (.active g p hg hp)

/-- What is left of the listed profiles, in their order. -/
theorem sortedPairs_of_effects (h : Effects W D w u) (ha : Apart w gid managed W D) :
    ∃ keep : String → Bool,
      sortedPairs u gid = (sortedPairs w gid).filter (fun e => keep e.1) ∧
      ∀ id, keep id = false → D (.routingProfile gid id) := by
  have hname : ∀ path id, routingProfileName gid path = some id → path = .routingProfile gid id := by
    intro path id hp
    cases path <;> simp [routingProfileName] at hp
    rw [hp.1,hp.2]
  obtain ⟨listed,hl,hk⟩ := effects_listing h hname (fun _ => rfl) ha.profiles
  -- a removed file is either not listed any more or cannot be read
  refine ⟨fun id => listed id && (storedRoutingProfile u gid id).isSome ||
    (storedRoutingProfile w gid id).isNone,?_,fun id hid => ?_⟩
  · rw [sortedPairs,sortedPairs,filter_insertionSort,hl]
    congr 1
    generalize listing (routingProfileName gid) w.disk = ids
    induction ids with
    | nil => rfl
    | cons id ids ih =>
      rcases effects_routingProfile h ha id with hs | ⟨-,hs⟩
      · cases hp : storedRoutingProfile w gid id <;> cases hi : listed id <;>
          simp [hi,hs,hp,ih]
      · cases hp : storedRoutingProfile w gid id <;> cases hi : listed id <;>
          simp [hi,hs,hp,ih]
  · rcases effects_routingProfile h ha id with hs | ⟨hd,-⟩
    · refine hk id ?_
      dsimp only at hid
      rw [hs] at hid
      cases hp : storedRoutingProfile w gid id with
      | none => simp [hp] at hid
      | some p => simpa [hp] using hid
    · exact hd

theorem groupGeo_of_effects (h : Effects W D w u) (ha : Apart w gid true W D)
    (hg : storedGroup w gid = some g) (hr : routed g' = routed g) :
    groupGeoAt u gid g' = groupGeoAt w gid g := by
  have hactive : g'.activeRoutingProfileId = g.activeRoutingProfileId :=
    congrArg (fun r => r.2.2) hr
  unfold groupGeoAt
  rw [hactive,activeGeo_of_effects h ha hg]
  cases hgeo : activeGeoAt w gid g.activeRoutingProfileId with
  | some dir => rfl
  | none =>
    obtain ⟨keep,hs,hk⟩ := sortedPairs_of_effects h ha
    rw [listed_sorted,listed_sorted,hs,List.findSome?_map,List.findSome?_map]
    refine findSome?_filter (fun e _ hn => geoAt_of_effects h ha hn) fun e he => ?_
    have hchosen : chosenAt w gid g = some (e.1,e.2) := by
      rw [chosenAt,hgeo]
      exact he
    constructor
    · by_contra hkeep
      exact ha.spared _ (hk e.1 (by simpa using hkeep)) (.chosen g e.1 e.2 rfl hg hchosen)
    · exact geoAt_spared h ha (.chosen g e.1 e.2 rfl hg hchosen)

theorem routed_of_effects (h : Effects W D w u) (ha : Apart w gid managed W D) :
    (storedGroup u gid).map routed = (storedGroup w gid).map routed :=
  effects_routed h ha.group fun hd => ha.spared _ hd .group

theorem rulesPath_of_effects (h : Effects W D w u) (ha : Apart w gid managed W D) :
    rulesPath u gid = rulesPath w gid := by
  have hany : ∀ o : Option Group, (o.any fun g => g.manualRoutingMode = manualRoutingCustom) =
      (o.map routed).any fun r => r.2.1 = manualRoutingCustom := fun o => by cases o <;> rfl
  rw [rulesPath,rulesPath,customAt,customAt,hany,hany,routed_of_effects h ha]

theorem manualAt_of_effects (h : Effects W D w u) (ha : Apart w gid managed W D) :
    manualAt u gid = manualAt w gid := by
  rw [manualAt,manualAt,rulesPath_of_effects h ha]
  rw [effects_stored h ha.rules (fun hd => ha.spared _ hd .rules)]
  unfold rulesPath
  split <;> simp

theorem group_of_effects (h : Effects W D w u) (ha : Apart w gid managed W D) :
    (storedGroup w gid = none ∧ storedGroup u gid = none) ∨
      ∃ g g', storedGroup w gid = some g ∧ storedGroup u gid = some g' ∧ routed g' = routed g := by
  have hr := routed_of_effects h ha
  cases hw : storedGroup w gid with
  | none =>
    rw [hw] at hr
    exact .inl ⟨rfl,Option.map_eq_none_iff.mp hr⟩
  | some g =>
    rw [hw] at hr
    obtain ⟨g',hu,hr⟩ := Option.map_eq_some_iff.mp hr
    exact .inr ⟨g,g',rfl,hu,hr⟩

theorem selection_of_effects (h : Effects W D w u) (ha : Apart w gid managed W D)
    (parseRawJSON : RawMessage → Option HappDNSConfig) :
    selectionAt u gid parseRawJSON = selectionAt w gid parseRawJSON := by
  unfold selectionAt
  rw [manualAt_of_effects h ha]
  rcases group_of_effects h ha with ⟨hw,hu⟩ | ⟨g,g',hw,hu,hr⟩
  · rw [hw,hu]
    rfl
  · have hmode : g'.routingMode = g.routingMode := congrArg Prod.fst hr
    have hrow : rowAt u gid parseRawJSON g' = rowAt w gid parseRawJSON g := by
      unfold rowAt
      rw [hmode,usable_of_effects h ha hw hr,manualAt_of_effects h ha]
      cases modeOf g.routingMode <;> cases usableProfile w gid g <;>
        simp only [profileGeoDir_of_effects h]
    rw [hw,hu]
    by_cases hgid : gid = 0 <;> simp [Option.filter,hgid,hrow]

theorem geoDir_of_effects (h : Effects W D w u) (ha : Apart w gid true W D) :
    geoDirAt u gid = geoDirAt w gid := by
  unfold geoDirAt
  rcases group_of_effects h ha with ⟨hw,hu⟩ | ⟨g,g',hw,hu,hr⟩
  · rw [hw,hu]
    rfl
  · rw [hw,hu]
    exact groupGeo_of_effects h ha hw hr

theorem render_of_uri {setup : Setup} {p q : Profile} (hu : q.uri = p.uri) :
    render setup q = render setup p := by
  funext b
  rw [render,render,Setup.start,Setup.start,hu]

/-- Effects apart from what a group is routed by start the core as before. -/
theorem started_of_effects {setup : Setup} {p q : Profile} (h : Effects W D w u)
    (ha : Apart w gid p.managed W D)
    (hd : p.managed = true → documentOf u q = documentOf w p)
    (hm : q.managed = p.managed) (hu : q.uri = p.uri) :
    startedIn u gid setup q = startedIn w gid setup p := by
  unfold startedIn baselineIn
  rw [render_of_uri hu,hm]
  cases hmanaged : p.managed with
  | false => simp only [Bool.false_eq_true,if_false,selection_of_effects h ha]
  | true =>
    rw [hmanaged] at ha
    simp only [if_true,hd hmanaged,manualAt_of_effects h ha,geoDir_of_effects h ha]

theorem started_of_files {setup : Setup} {p : Profile} (h : SameFiles w u) :
    startedIn u gid setup p = startedIn w gid setup p := by
  have ha : Apart w gid p.managed (fun _ _ => False) (fun _ => False) :=
    ⟨fun _ => False.elim,fun _ => id,fun _ _ => id,fun _ _ => False.elim,fun _ => False.elim⟩
  refine started_of_effects (.same .start h) ha (fun _ => ?_) rfl rfl
  rw [documentOf,documentOf,stored,stored,h.disk,h.key]

end Framing

end Whoisthat.Footprints
