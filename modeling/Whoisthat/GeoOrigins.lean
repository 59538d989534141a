import Whoisthat.GeoWorkers
import Whoisthat.RoutingWrites
import Std.Data.String.ToInt

/-!
# Where geo files come from

Imports and geo workers are followed together with a record of where each geo
file was obtained. A download owns the temporary directory of the second it
started in; renaming that directory makes the version a profile names. What
imports and workers do to the geo directories is stated here, one operation at a
time.
-/

set_option autoImplicit false

namespace Whoisthat.GeoOrigins
open Whoisthat.FileStore Whoisthat.FallibleState Whoisthat.Records Whoisthat.Database
open Whoisthat.GroupFiles Whoisthat.RoutingStore Whoisthat.RoutingResolution Whoisthat.FiledRecords
open Whoisthat.HappImport Whoisthat.GeoWorkers

section Record

inductive Source where
  | url (u : String)
  | globalAsset
  deriving DecidableEq

/-- An empty URL stands for the global asset. -/
def sourceOf (url : String) : Source :=
  if trimSpace url = "" then .globalAsset else .url (trimSpace url)

def assetSource (urls : String × String) : Asset → Source
  | .geoip => sourceOf urls.1
  | .geosite => sourceOf urls.2

def Unset (urls : String × String) : Prop := trimSpace urls.1 = "" ∧ trimSpace urls.2 = ""

instance (urls : String × String) : Decidable (Unset urls) :=
  inferInstanceAs (Decidable (_ ∧ _))

/-- The group, the profile and the second of a download. -/
abbrev Download := ℤ × String × ℤ

/-- Where a file of a version of a profile was obtained. -/
abbrev Origins := ℤ → String → String → String → Option Source

structure Traced where
  sys : Sys
  origin : Origins
  started : List Download

def Origins.obtain (o : Origins) (gid : ℤ) (id version file : String) (source : Option Source) :
    Origins := fun g i v f =>
  if g = gid ∧ i = id ∧ v = version ∧ f = file then source else o g i v f

def Origins.move (o : Origins) (gid : ℤ) (id source target : String) : Origins := fun g i v f =>
  if g = gid ∧ i = id ∧ v = target then o gid id source f else o g i v f

variable (geoURLs : RawMessage → Option (String × String))

def wanted (p : RoutingProfile) (asset : Asset) : Option Source :=
  (geoURLs p.rawJSON).map fun urls => assetSource urls asset

/-- What a step of a worker adds to the record. -/
def recorded (i : Input) (k : Worker) (w : World) (o : Origins) (ds : List Download) :
    Origins × List Download :=
  let p := k.copy.profile
  match k.phase with
  | .prepare now => if i.fault then (o,ds) else (o,(p.groupId,p.id,now)::ds)
  | .fetch now asset =>
    if i.fault then (o,ds)
    else match writeAsset p.groupId p.id (tmpVersion now) asset.file i.bytes w with
      | (.ok _,_) =>
        (o.obtain p.groupId p.id (tmpVersion now) asset.file (wanted geoURLs p asset),ds)
      | (.error _,_) => (o,ds)
  | .commit now _ =>
    if i.fault then (o,ds)
    else match renameGeo p.groupId p.id (tmpVersion now) (toString now) w with
      | (.ok _,_) => (o.move p.groupId p.id (tmpVersion now) (toString now),ds)
      | (.error _,_) => (o,ds)
  | _ => (o,ds)

def Traced.step (t : Traced) (e : Event) : Traced :=
  let record := match e with
    | .worker n i =>
      match t.sys.workers[n]? with
      | none => (t.origin,t.started)
      | some k => recorded geoURLs i k t.sys.world t.origin t.started
    | _ => (t.origin,t.started)
  { sys := e.step geoURLs t.sys, origin := record.1, started := record.2 }

def Traced.run (t : Traced) : List Event → Traced
  | [] => t
  | e::es => (t.step geoURLs e).run es

end Record

section Property

variable (geoURLs : RawMessage → Option (String × String))

/-- The version a profile names is there, with the files of the profile's URLs. -/
def Backed (w : World) (o : Origins) (p : RoutingProfile) : Prop :=
  p.geoDir ≠ "" → ∃ now urls, p.geoDir = geoDirOf p.groupId p.id now ∧
    geoURLs p.rawJSON = some urls ∧
    (w.disk.lookup (.routingGeoDir p.groupId p.id (toString now))).isSome ∧
    ∀ asset : Asset,
      (w.disk.lookup (.routingGeo p.groupId p.id (toString now) asset.file)).isSome ∧
      o p.groupId p.id (toString now) asset.file = some (assetSource urls asset)

structure Obtained (t : Traced) : Prop where
  ready : ∀ g i p, profileOn t.sys.world g i = some p → p.state = "ready" →
    Backed geoURLs t.sys.world t.origin p
  unset : ∀ g i p, profileOn t.sys.world g i = some p → geoURLs p.rawJSON = some ("","") →
    p.geoDir = ""

/-- A database in which no routing profile was made yet. -/
structure Unrouted (subscriptionHost : String → String) (w : World) : Prop where
  built : Built subscriptionHost w
  profiles : ∀ g i, w.disk.lookup (.routingProfile g i) = none
  geo : ∀ path, GeoName path → w.disk.lookup path = none

def begin (w : World) : Traced := ⟨GeoWorkers.start w,fun _ _ _ _ => none,[]⟩

/-- A name of letters, digits, `_` and `-`, as `gonanoid.Must` makes it. -/
def Plain (id : String) : Prop := id.toList ≠ [] ∧ '/' ∉ id.toList ∧ '.' ∉ id.toList

instance (id : String) : Decidable (Plain id) := inferInstanceAs (Decidable (_ ∧ _ ∧ _))

/-- `ParseLink` decodes the fields from the text it keeps. -/
def Parsed : ParsedLink → Prop
  | .off => True
  | .profile _ hp => geoURLs hp.rawJSON = some (hp.geoipurl,hp.geositeurl)

instance (link : ParsedLink) : Decidable (Parsed geoURLs link) := by
  unfold Parsed
  split <;> infer_instance

/-- The versions a prune removes. -/
def outdated (gid : ℤ) (id currentVersion : String) (w : World) : List String :=
  (((listing (geoVersionName gid id) w.disk).filter fun v =>
    v ≠ currentVersion && !".tmp".toList.isSuffixOf v.toList).insertionSort (· ≤ ·)).dropLast

/-- The worker saves its copy, as ready, in its next step. -/
def Phase.saves : Phase → Bool
  | .settle => true
  | .save _ => true
  | _ => false

/-- The weekly gate accepts files that came from the URLs of the profile, a
download starts in a second of its own and is committed to a profile with the
URLs it started with, and a prune spares what a profile names or is about to. -/
def CarefulStep (t : Traced) (i : Input) (k : Worker) : Prop :=
  let p := k.copy.profile
  match k.phase with
  | .ensure => gated i.now p t.sys.world = true →
      ∀ now, p.geoDir = geoDirOf p.groupId p.id now → ∀ asset : Asset,
        t.origin p.groupId p.id (toString now) asset.file = wanted geoURLs p asset
  | .prepare now => (p.groupId,p.id,now) ∉ t.started
  | .commit _ latest => ∀ asset, wanted geoURLs latest.profile asset = wanted geoURLs p asset
  | .prune now => ∀ n : ℤ, toString n ∈ outdated p.groupId p.id (toString now) t.sys.world →
      (∀ q, profileOn t.sys.world p.groupId p.id = some q →
        q.geoDir ≠ geoDirOf p.groupId p.id n) ∧
      ∀ j ∈ t.sys.workers, Phase.saves j.phase = true →
        j.copy.profile.geoDir ≠ geoDirOf p.groupId p.id n
  | _ => True

/-- Imports and geo workers alone, with names and links as they come. -/
def Careful (t : Traced) : Event → Prop
  | .upsert _ links _ => ∀ link ∈ links, ∀ l, link = some l → Parsed geoURLs l
  | .setActive _ _ => True
  | .delete _ _ => False
  | .deleteGroup _ => False
  | .command newID => Plain newID
  | .worker n i => ∀ k, t.sys.workers[n]? = some k → CarefulStep geoURLs t i k

def CarefulRun (t : Traced) : List Event → Prop
  | [] => True
  | e::es => Careful geoURLs t e ∧ CarefulRun (t.step geoURLs e) es

end Property

section Names

theorem numeral_inj {a b : ℤ} (h : toString a = toString b) : a = b := Int.repr_injective h

theorem tmpVersion_inj {a b : ℤ} (h : tmpVersion a = tmpVersion b) : a = b := by
  have hl := congrArg String.toList h
  rw [tmpVersion,tmpVersion,String.toList_append,String.toList_append] at hl
  exact numeral_inj (String.toList_injective (List.append_cancel_right hl))

theorem numeral_plain (n : ℤ) : '/' ∉ (toString n).toList ∧ '.' ∉ (toString n).toList := by
  constructor <;> intro h <;> rcases Footprints.numeral_chars n _ h with h | h <;>
    exact absurd h (by decide)

theorem numeral_ne_tmp (n m : ℤ) : toString n ≠ tmpVersion m := by
  intro h
  refine (numeral_plain n).2 ?_
  rw [h,tmpVersion,String.toList_append]
  simp

theorem tmp_suffix (now : ℤ) : ".tmp".toList.isSuffixOf (tmpVersion now).toList = true := by
  rw [tmpVersion,String.toList_append,List.isSuffixOf_iff_suffix]
  exact List.suffix_append _ _

theorem geoDirOf_inj {g : ℤ} {i : String} {a b : ℤ} (h : geoDirOf g i a = geoDirOf g i b) :
    a = b := by
  have hl := congrArg String.toList h
  simp only [geoDirOf,String.toList_append] at hl
  exact numeral_inj (String.toList_injective (List.append_cancel_left hl))

theorem geoDirOf_ne (g : ℤ) (i : String) (now : ℤ) : geoDirOf g i now ≠ "" := by
  intro h
  have hl := congrArg String.toList h
  simp [geoDirOf,String.toList_append] at hl

theorem joinPath_geoDirOf (root : List String) (g : ℤ) {i : String} (hi : Plain i) (now : ℤ) :
    joinPath root (geoDirOf g i now) =
      root ++ ["groups",toString g,"routing","geo",i,toString now] := by
  have hsplit : (geoDirOf g i now).toList.splitOn '/' =
      ["groups".toList,(toString g).toList,"routing".toList,"geo".toList,i.toList,
        (toString now).toList] := by
    have htext : (geoDirOf g i now).toList = "groups".toList ++ '/'::((toString g).toList ++
        '/'::("routing".toList ++ '/'::("geo".toList ++ '/'::(i.toList ++
          '/'::(toString now).toList)))) := by
      simp [geoDirOf,String.toList_append]
    rw [htext,List.splitOn_append_cons_self_of_not_mem (by decide),
      List.splitOn_append_cons_self_of_not_mem (numeral_plain g).1,
      List.splitOn_append_cons_self_of_not_mem (by decide),
      List.splitOn_append_cons_self_of_not_mem (by decide),
      List.splitOn_append_cons_self_of_not_mem hi.2.1,
      List.splitOn_eq_singleton (numeral_plain now).1]
  -- no part is empty or made of dots
  have hpart : ∀ s : String, s.toList ≠ [] → '.' ∉ s.toList → ∀ acc : List String,
      (if s.toList = [] ∨ s.toList = ['.'] then acc
        else if s.toList = ['.','.'] then acc.dropLast
        else acc ++ [String.ofList s.toList]) = acc ++ [s] := by
    intro s hs hdot acc
    rw [if_neg,if_neg,String.ofList_toList]
    · intro h
      rw [h] at hdot
      simp at hdot
    · rintro (h | h)
      · exact hs h
      · rw [h] at hdot
        simp at hdot
  have hnumeral : ∀ n : ℤ, (toString n).toList ≠ [] := by
    intro n h
    cases n with
    | ofNat m =>
      rw [show toString (Int.ofNat m) = toString m from rfl,Nat.toString_eq_ofList_toDigits,
        String.toList_ofList] at h
      exact Nat.toDigits_ne_nil h
    | negSucc m =>
      rw [show toString (Int.negSucc m) = "-" ++ toString (m+1) from rfl,
        String.toList_append] at h
      simp at h
  unfold joinPath
  rw [hsplit]
  simp only [List.foldl_cons,List.foldl_nil]
  rw [hpart "groups" (by decide) (by decide),hpart _ (hnumeral g) (numeral_plain g).2,
    hpart "routing" (by decide) (by decide),hpart "geo" (by decide) (by decide),
    hpart _ hi.1 hi.2.2,hpart _ (hnumeral now) (numeral_plain now).2]
  simp

/-- A file under the directory a profile names is a file of that version. -/
theorem asset_of_exists {w : World} {g : ℤ} {i : String} {now : ℤ} {file : String} (hi : Plain i)
    (h : existsAt (joinPath w.root (geoDirOf g i now) ++ [file]) w = true) :
    (w.disk.lookup (.routingGeo g i (toString now) file)).isSome := by
  obtain ⟨path,hp,ht⟩ := Footprints.existsAt_iff.mp h
  rw [joinPath_geoDirOf w.root g hi now,List.append_assoc] at ht
  have hc := List.append_cancel_left ht
  cases path <;> simp [Path.components] at hc
  obtain ⟨rfl,rfl,hn,rfl⟩ := hc
  rw [hn] at hp
  exact hp

end Names

section Disk

variable {w : World} {gid : ℤ} {id version source target : String}

/-- The geo directories that may have changed. -/
structure Touches (T : ℤ → String → String → Prop) (w w' : World) : Prop where
  dirs : ∀ g i v, ¬T g i v →
    w'.disk.lookup (.routingGeoDir g i v) = w.disk.lookup (.routingGeoDir g i v)
  files : ∀ g i v f, ¬T g i v →
    w'.disk.lookup (.routingGeo g i v f) = w.disk.lookup (.routingGeo g i v f)
  /-- What is in a directory is there with it. -/
  housed : (∀ g i v f, (w.disk.lookup (.routingGeo g i v f)).isSome →
      (w.disk.lookup (.routingGeoDir g i v)).isSome) →
    ∀ g i v f, (w'.disk.lookup (.routingGeo g i v f)).isSome →
      (w'.disk.lookup (.routingGeoDir g i v)).isSome

def NoDir (_ : ℤ) (_ _ : String) : Prop := False

def OneDir (gid : ℤ) (id version : String) (g : ℤ) (i v : String) : Prop :=
  g = gid ∧ i = id ∧ v = version

theorem touches_geo {w' : World} (h : ∀ path, GeoName path → w'.disk.lookup path =
    w.disk.lookup path) : Touches NoDir w w' where
  dirs g i v _ := h (.routingGeoDir g i v) trivial
  files g i v f _ := h (.routingGeo g i v f) trivial
  housed hw g i v f := by
    rw [h (.routingGeo g i v f) trivial,h (.routingGeoDir g i v) trivial]
    exact hw g i v f

theorem touches_effects {W : Path → Payload → Prop} {u : World}
    (hw : ∀ path p, W path p → ¬GeoName path)
    (h : Footprints.Effects W RoutingWrites.Nothing w u) : Touches NoDir w u := by
  refine touches_geo fun path hp => ?_
  refine (Footprints.effects_lookup h (fun p hW => hw path p hW hp) fun g he => ?_).resolve_right
    fun hd => hd.1
  rw [he] at hp
  exact hp

theorem lookup_mkdirFor_geo (q path : Path) (t : Tree) (hp : GeoName path) :
    (mkdirFor q t).lookup path = t.lookup path := by
  refine Footprints.lookup_mkdirFor (fun g he => ?_) t
  rw [he] at hp
  exact hp

theorem touches_mkdirGeo : Touches (OneDir gid id version) w (mkdirGeo gid id version w).2 := by
  have hlook : ∀ path, GeoName path → (mkdirGeo gid id version w).2.disk.lookup path =
      if path = .routingGeoDir gid id version then some .dir else w.disk.lookup path := by
    intro path hp
    simp only [mkdirGeo,modify_run,lookup_insert,lookup_mkdirFor_geo _ path _ hp]
  refine ⟨fun g i v h => ?_,fun g i v f _ => ?_,fun hw g i v f => ?_⟩
  · rw [hlook (.routingGeoDir g i v) trivial,if_neg]
    rintro ⟨⟩
    exact h ⟨rfl,rfl,rfl⟩
  · rw [hlook (.routingGeo g i v f) trivial,if_neg (by simp)]
  · rw [hlook (.routingGeo g i v f) trivial,hlook (.routingGeoDir g i v) trivial,if_neg (by simp)]
    intro hf
    split
    · rfl
    · exact hw g i v f hf

theorem mkdirGeo_dir : ((mkdirGeo gid id version w).2.disk.lookup
    (.routingGeoDir gid id version)).isSome := by
  simp [mkdirGeo]

/-- A written file is in a directory that was there. -/
theorem writeAsset_ok {file : String} {bytes : List UInt8} {u : Unit} {w' : World}
    (h : writeAsset gid id version file bytes w = (.ok u,w')) :
    Touches (OneDir gid id version) w w' ∧
      ∀ f, w'.disk.lookup (.routingGeo gid id version f) =
        if f = file then some (.file (.junk bytes))
        else w.disk.lookup (.routingGeo gid id version f) := by
  unfold writeAsset at h
  split at h
  · rename_i hdir
    obtain ⟨-,rfl⟩ := Prod.mk.inj h
    refine ⟨⟨fun g i v _ => ?_,fun g i v f hn => ?_,fun hw g i v f hf => ?_⟩,fun f => ?_⟩
    · rw [lookup_insert,if_neg nofun]
    · rw [lookup_insert,if_neg]
      rintro ⟨⟩
      exact hn ⟨rfl,rfl,rfl⟩
    · simp only [lookup_insert] at hf ⊢
      split at hf
      · rename_i he
        obtain ⟨rfl,rfl,rfl,rfl⟩ := Path.routingGeo.inj he
        rwa [if_neg nofun]
      · rw [if_neg nofun]
        exact hw g i v f hf
    · simp [lookup_insert]
  · exact nomatch (Prod.mk.inj h).1

theorem writeAsset_error {file : String} {bytes : List UInt8} {e : DBError} {w' : World}
    (h : writeAsset gid id version file bytes w = (.error e,w')) : w' = w := by
  unfold writeAsset at h
  split at h
  · exact nomatch (Prod.mk.inj h).1
  · exact (Prod.mk.inj h).2.symm

theorem lookup_moveAsset_target (hst : source ≠ target) (file f : String) (t : Tree) :
    (moveAsset gid id source target t file).lookup (.routingGeo gid id target f) =
      if f = file then (t.lookup (.routingGeo gid id source f)).or
        (t.lookup (.routingGeo gid id target f))
      else t.lookup (.routingGeo gid id target f) := by
  unfold moveAsset
  by_cases hf : f = file
  · subst hf
    cases hn : t.lookup (.routingGeo gid id source f) <;> simp
  · cases hn : t.lookup (.routingGeo gid id source file) <;>
      simp [hf,Ne.symm hst]

theorem lookup_moveAsset_source (hst : source ≠ target) (file f : String) (t : Tree) :
    (moveAsset gid id source target t file).lookup (.routingGeo gid id source f) =
      if f = file then none else t.lookup (.routingGeo gid id source f) := by
  unfold moveAsset
  by_cases hf : f = file
  · subst hf
    cases hn : t.lookup (.routingGeo gid id source f) <;> simp [hn,hst]
  · cases hn : t.lookup (.routingGeo gid id source file) <;>
      simp [hf,hst]

theorem lookup_moveAsset_other {path : Path} (file : String) (t : Tree)
    (hp : ∀ f, path ≠ .routingGeo gid id source f ∧ path ≠ .routingGeo gid id target f) :
    (moveAsset gid id source target t file).lookup path = t.lookup path := by
  unfold moveAsset
  split
  · rfl
  · rw [lookup_insert,if_neg (hp file).2,lookup_erase,if_neg (hp file).1]

theorem lookup_moved (hst : source ≠ target) (files : List String) (t : Tree) (f : String) :
    let t' := files.foldl (moveAsset gid id source target) t
    t'.lookup (.routingGeo gid id target f) =
        (if f ∈ files then (t.lookup (.routingGeo gid id source f)).or
          (t.lookup (.routingGeo gid id target f))
        else t.lookup (.routingGeo gid id target f)) ∧
      t'.lookup (.routingGeo gid id source f) =
        if f ∈ files then none else t.lookup (.routingGeo gid id source f) := by
  induction files generalizing t with
  | nil => exact ⟨rfl,rfl⟩
  | cons file files ih =>
    obtain ⟨htarget,hsource⟩ := ih (moveAsset gid id source target t file)
    rw [lookup_moveAsset_target hst,lookup_moveAsset_source hst] at htarget
    rw [lookup_moveAsset_source hst] at hsource
    simp only [List.foldl_cons,List.mem_cons]
    rw [htarget,hsource]
    by_cases hf : f = file
    · simp [hf]
    · by_cases hm : f ∈ files <;> simp [hf,hm]

theorem lookup_moved_other {path : Path} (files : List String) (t : Tree)
    (hp : ∀ f, path ≠ .routingGeo gid id source f ∧ path ≠ .routingGeo gid id target f) :
    (files.foldl (moveAsset gid id source target) t).lookup path = t.lookup path := by
  induction files generalizing t with
  | nil => rfl
  | cons file files ih => exact (ih _).trans (lookup_moveAsset_other file t hp)

theorem mem_geoFiles {t : Tree} {f : String} :
    f ∈ listing (geoFileName gid id version) t ↔
      (t.lookup (.routingGeo gid id version f)).isSome := by
  rw [mem_listing]
  constructor
  · rintro ⟨path,hl,hp⟩
    cases path <;> simp [geoFileName] at hp
    obtain ⟨⟨rfl,rfl,rfl⟩,rfl⟩ := hp
    exact hl
  · exact fun h => ⟨_,h,by simp [geoFileName]⟩

/-- A renamed directory has the files of its source, and is the only one. -/
theorem renameGeo_ok (hst : source ≠ target) {u : Unit} {w' : World}
    (h : renameGeo gid id source target w = (.ok u,w')) :
    Touches (fun g i v => OneDir gid id source g i v ∨ OneDir gid id target g i v) w w' ∧
      (∀ f, w.disk.lookup (.routingGeo gid id target f) = none) ∧
      (w'.disk.lookup (.routingGeoDir gid id target)).isSome ∧
      ∀ f, w'.disk.lookup (.routingGeo gid id target f) =
        w.disk.lookup (.routingGeo gid id source f) := by
  unfold renameGeo at h
  split_ifs at h with hdir hfiles
  · cases h
  · cases h
  · obtain ⟨-,rfl⟩ := Prod.mk.inj h
    have hempty : ∀ f, w.disk.lookup (.routingGeo gid id target f) = none := by
      intro f
      by_contra hn
      have hm := mem_geoFiles.mpr (Option.isSome_iff_ne_none.mpr hn)
      rw [not_not.mp hfiles] at hm
      cases hm
    have hlook : ∀ path, path ≠ .routingGeoDir gid id target → path ≠ .routingGeoDir gid id source →
        ((movedAssets gid id source target w.disk).insert (.routingGeoDir gid id target)
          .dir).lookup path =
          ((listing (geoFileName gid id source) w.disk).foldl (moveAsset gid id source target)
            w.disk).lookup path := by
      intro path ht hs
      rw [lookup_insert,if_neg ht,movedAssets,lookup_erase,if_neg hs]
    have hmoved : ∀ f, ((movedAssets gid id source target w.disk).insert
        (.routingGeoDir gid id target) .dir).lookup (.routingGeo gid id target f) =
          w.disk.lookup (.routingGeo gid id source f) := by
      intro f
      rw [hlook (.routingGeo gid id target f) (by simp) (by simp),
        (lookup_moved hst _ w.disk f).1,hempty f]
      cases hf : w.disk.lookup (.routingGeo gid id source f) with
      | none => simp
      | some n => rw [if_pos (mem_geoFiles.mpr (by rw [hf]; rfl))]; rfl
    have hleft : ∀ f, ((movedAssets gid id source target w.disk).insert
        (.routingGeoDir gid id target) .dir).lookup (.routingGeo gid id source f) = none := by
      intro f
      rw [hlook (.routingGeo gid id source f) (by simp) (by simp),(lookup_moved hst _ w.disk f).2]
      split
      · rfl
      · rename_i hm
        rw [mem_geoFiles] at hm
        exact Option.not_isSome_iff_eq_none.mp hm
    have hdirs : ∀ g i v, ¬OneDir gid id target g i v → ¬OneDir gid id source g i v →
        ((movedAssets gid id source target w.disk).insert (.routingGeoDir gid id target)
          .dir).lookup (.routingGeoDir g i v) = w.disk.lookup (.routingGeoDir g i v) := by
      intro g i v ht hs
      rw [hlook,lookup_moved_other]
      · exact fun f => ⟨by simp,by simp⟩
      · rintro ⟨⟩
        exact ht ⟨rfl,rfl,rfl⟩
      · rintro ⟨⟩
        exact hs ⟨rfl,rfl,rfl⟩
    have hothers : ∀ g i v f, ¬OneDir gid id target g i v → ¬OneDir gid id source g i v →
        ((movedAssets gid id source target w.disk).insert (.routingGeoDir gid id target)
          .dir).lookup (.routingGeo g i v f) = w.disk.lookup (.routingGeo g i v f) := by
      intro g i v f ht hs
      rw [hlook (.routingGeo g i v f) (by simp) (by simp),lookup_moved_other]
      refine fun f' => ⟨?_,?_⟩
      · rintro ⟨⟩
        exact hs ⟨rfl,rfl,rfl⟩
      · rintro ⟨⟩
        exact ht ⟨rfl,rfl,rfl⟩
    refine ⟨⟨fun g i v hn => hdirs g i v (fun h => hn (.inr h)) fun h => hn (.inl h),
      fun g i v f hn => hothers g i v f (fun h => hn (.inr h)) fun h => hn (.inl h),
      fun hw g i v f hf => ?_⟩,hempty,by simp,hmoved⟩
    by_cases ht : OneDir gid id target g i v
    · obtain ⟨rfl,rfl,rfl⟩ := ht
      simp
    · by_cases hs : OneDir gid id source g i v
      · obtain ⟨rfl,rfl,rfl⟩ := hs
        rw [hleft] at hf
        cases hf
      · rw [hothers g i v f ht hs] at hf
        rw [hdirs g i v ht hs]
        exact hw g i v f hf

theorem renameGeo_error {e : DBError} {w' : World}
    (h : renameGeo gid id source target w = (.error e,w')) : w' = w := by
  unfold renameGeo at h
  split_ifs at h
  · exact (Prod.mk.inj h).2.symm
  · exact (Prod.mk.inj h).2.symm
  · exact nomatch (Prod.mk.inj h).1

theorem touches_removeGeoDir : Touches (OneDir gid id version) w (removeGeoDir gid id version w).2 := by
  have hlook : ∀ path, (removeGeoDir gid id version w).2.disk.lookup path =
      if inGeoDir gid id version path then none else w.disk.lookup path := fun path =>
    lookup_removeAll _ _ _
  refine ⟨fun g i v hn => ?_,fun g i v f hn => ?_,fun hw g i v f => ?_⟩
  · rw [hlook,if_neg]
    simpa [inGeoDir,OneDir] using hn
  · rw [hlook,if_neg]
    simpa [inGeoDir,OneDir] using hn
  · rw [hlook,hlook]
    intro hf
    by_cases hin : inGeoDir gid id version (.routingGeo g i v f) = true
    · rw [if_pos hin] at hf
      cases hf
    · rw [if_neg hin] at hf
      have hdir : ¬inGeoDir gid id version (.routingGeoDir g i v) = true := hin
      rw [if_neg hdir]
      exact hw g i v f hf

theorem touches_mono {T T' : ℤ → String → String → Prop} {w' : World}
    (hT : ∀ g i v, T g i v → T' g i v) (h : Touches T w w') : Touches T' w w' where
  dirs g i v hn := h.dirs g i v fun ht => hn (hT g i v ht)
  files g i v f hn := h.files g i v f fun ht => hn (hT g i v ht)
  housed := h.housed

theorem touches_trans {T : ℤ → String → String → Prop} {u v : World} (h : Touches T w u)
    (h' : Touches T u v) : Touches T w v where
  dirs g i d hn := (h'.dirs g i d hn).trans (h.dirs g i d hn)
  files g i d f hn := (h'.files g i d f hn).trans (h.files g i d f hn)
  housed hw := h'.housed (h.housed hw)

theorem touches_refl (w : World) : Touches NoDir w w := touches_geo fun _ _ => rfl

theorem touches_prune {current : String} :
    Touches (fun g i v => g = gid ∧ i = id ∧ v ∈ outdated gid id current w) w
      (pruneOldGeoDirs gid id current w).2 := by
  have hrun : (pruneOldGeoDirs gid id current w).2 =
      (forEach (removeGeoDir gid id) (outdated gid id current w) w).2 := rfl
  have hall : ∀ (vs : List String) (u : World),
      Touches (fun g i v => g = gid ∧ i = id ∧ v ∈ vs) u
        (forEach (removeGeoDir gid id) vs u).2 := by
    intro vs
    induction vs with
    | nil => exact fun u => touches_mono (fun _ _ _ h => False.elim h) (touches_refl u)
    | cons v vs ih =>
      intro u
      have hstep : (forEach (removeGeoDir gid id) (v::vs) u).2 =
          (forEach (removeGeoDir gid id) vs (removeGeoDir gid id v u).2).2 := rfl
      rw [hstep]
      refine touches_trans (touches_mono ?_ touches_removeGeoDir) (touches_mono ?_ (ih _))
      · rintro g i d ⟨rfl,rfl,rfl⟩
        exact ⟨rfl,rfl,List.mem_cons_self⟩
      · rintro g i d ⟨rfl,rfl,hd⟩
        exact ⟨rfl,rfl,List.mem_cons_of_mem _ hd⟩
  rw [hrun]
  exact hall _ w

/-- The current version and temporary directories are never outdated. -/
theorem outdated_spares {current v : String} (h : v ∈ outdated gid id current w) :
    v ≠ current ∧ ∀ now, v ≠ tmpVersion now := by
  have hm := List.dropLast_subset _ h
  rw [List.mem_insertionSort,List.mem_filter,Bool.and_eq_true] at hm
  refine ⟨by simpa using hm.2.1,?_⟩
  rintro now rfl
  rw [tmp_suffix] at hm
  exact nomatch hm.2.2

end Disk

section Quiet

open Whoisthat.Footprints Whoisthat.RoutingWrites

variable {w : World} {gid : ℤ}

theorem groupWrites_geo (path : Path) (p : Payload) (h : GroupWrites gid path p) :
    ¬GeoName path := by
  cases h <;> exact fun h => h

/-- What a command about a group's selection does to the database. -/
structure Selects (w w' : World) : Prop where
  touches : Touches NoDir w w'
  filed : Filed w'
  profiles : ∀ g i, profileOn w' g i = profileOn w g i

theorem selects_effects (hw : Filed w) {w' : World} (h : Effects (GroupWrites gid) Nothing w w') :
    Selects w w' where
  touches := touches_effects groupWrites_geo h
  filed := effects_filed fits_groupWrites h hw
  profiles g i := effects_stored h (fun p (hp : GroupWrites gid (.routingProfile g i) p) => nomatch hp)
    (fun hf => hf) nofun _

theorem selects_reads {w' : World} (hw : Filed w) (h : Reads w w') : Selects w w' where
  touches := touches_geo fun _ _ => by rw [h.disk]
  filed := primitive_filed.reads _ _ h hw
  profiles g i := profileOn_congr h.key (by rw [h.disk])

theorem inside_setActive {α : Type} (hw : Filed w) (id : String) (a : α) :
    Inside (GroupWrites gid) Nothing w
      (attempt (setActiveRoutingProfile gid id) >>= fun _ => pure a : DBM α) :=
  inside_bind (inside_attempt (inside_setActiveRoutingProfile hw id)) fun _ => inside_pure a

theorem inside_loadAttempt {W : Path → Payload → Prop} {D : Path → Prop} :
    Inside W D w (attempt (loadGroupConfig gid)) :=
  inside_attempt (inside_read fun _ =>
    SessionRouting.yields_wrapping _ (SessionRouting.yields_read _ _))

theorem selects_selectImported (hw : Filed w) (action : Action) (isNew : Bool)
    (p : RoutingProfile) : Selects w (selectImported gid action isNew p w).2 := by
  refine @selects_effects w gid hw _ (inside_run ?_ .start)
  unfold selectImported
  split
  · refine inside_bind inside_loadAttempt fun r => ?_
    cases r with
    | error e => exact inside_pure ()
    | ok group =>
      dsimp only
      split
      · exact inside_setActive hw p.id ()
      · exact inside_pure ()
  · split
    · exact inside_setActive hw p.id ()
    · exact inside_pure ()

theorem selects_activated (hw : Filed w) (id : String) : Selects w (activated gid id w).2 := by
  refine @selects_effects w gid hw _ (inside_run ?_ .start)
  refine inside_bind inside_loadAttempt fun r => ?_
  cases r with
  | error e => exact inside_pure _
  | ok group =>
    dsimp only
    split
    · exact inside_pure _
    · exact inside_bind (inside_attempt (inside_setActiveRoutingProfile hw _)) fun _ =>
        inside_pure _

theorem selects_reportGeo (hw : Filed w) (k : Worker) : Selects w (reportGeo k w).2 := by
  refine @selects_effects w k.gid hw _ (inside_run ?_ .start)
  refine inside_bind inside_loadAttempt fun r => ?_
  cases r with
  | error e => exact inside_pure _
  | ok group =>
    dsimp only
    split
    · exact inside_setActive hw k.copy.profile.id ()
    · exact inside_pure _

theorem selects_setActive (hw : Filed w) (id : String) :
    Selects w (setActiveRoutingProfile gid id w).2 :=
  selects_effects hw (inside_run (inside_setActiveRoutingProfile hw id) .start)

/-- A save changes one profile, and no geo directory. -/
theorem touches_save (p : RoutingProfile) : Touches NoDir w (saveRoutingProfile p w).2 := by
  have h : Inside (fun path _ => path = .routingProfile p.groupId p.id) Nothing w
      (saveRoutingProfile p) :=
    inside_bind (inside_mkdir _) fun _ => inside_write rfl
  refine touches_effects (fun path x he => ?_) (inside_run h .start)
  rw [he]
  exact fun h => h

theorem profileOn_save {p q : RoutingProfile} (hw : Filed w) {g : ℤ} {i : String}
    (h : profileOn (saveRoutingProfile p w).2 g i = some q) :
    profileOn w g i = some q ∨ q = p ∧ g = p.groupId ∧ i = p.id := by
  have hs := saves_saveRoutingProfile p hw
  by_cases hown : (saveRoutingProfile p w).1.toOption.isSome = true ∧ g = p.groupId ∧ i = p.id
  · obtain ⟨hok,rfl,rfl⟩ := hown
    rw [hs.own hok] at h
    exact .inr ⟨(Option.some.inj h).symm,rfl,rfl⟩
  · rw [profileOn_congr hs.key (hs.other g i hown)] at h
    exact .inl h

end Quiet

end Whoisthat.GeoOrigins
