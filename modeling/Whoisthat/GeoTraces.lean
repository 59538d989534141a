import Whoisthat.GeoOrigins

/-!
# The geo files of ready profiles

In a careful run of imports and geo workers every ready profile has the files of
its own URLs. The invariant covers what workers hold: the temporary directory of
a download belongs to one worker, and a copy that is about to be saved as ready
has its files already.
-/

set_option autoImplicit false

namespace Whoisthat.GeoTraces
open Whoisthat.FileStore Whoisthat.FallibleState Whoisthat.Records Whoisthat.Database
open Whoisthat.GroupFiles Whoisthat.RoutingStore Whoisthat.RoutingResolution Whoisthat.FiledRecords
open Whoisthat.HappImport Whoisthat.GeoWorkers Whoisthat.GeoOrigins

section Predicates

variable (geoURLs : RawMessage → Option (String × String))

/-- What holds of a profile whatever the files are. -/
structure Formed (p : RoutingProfile) : Prop where
  plain : Plain p.id
  urls : ∃ urls, geoURLs p.rawJSON = some urls ∧ (urls = ("","") → p.geoDir = "")
  dir : p.geoDir ≠ "" → ∃ now, p.geoDir = geoDirOf p.groupId p.id now

/-- The download whose temporary directory the worker uses. -/
def download (k : Worker) : Option Download :=
  match k.phase with
  | .fetch now _ => some (k.copy.profile.groupId,k.copy.profile.id,now)
  | .reload now => some (k.copy.profile.groupId,k.copy.profile.id,now)
  | .commit now _ => some (k.copy.profile.groupId,k.copy.profile.id,now)
  | .abandon now => some (k.copy.profile.groupId,k.copy.profile.id,now)
  | .cleanup now _ => some (k.copy.profile.groupId,k.copy.profile.id,now)
  | _ => none

/-- The worker goes on to download for the URLs of its copy. -/
def downloads : Phase → Bool
  | .prepare _ => true
  | .fetch _ _ => true
  | .reload _ => true
  | .commit _ _ => true
  | _ => false

def fetched : Phase → List (ℤ × Asset)
  | .fetch now .geosite => [(now,.geoip)]
  | .reload now => [(now,.geoip),(now,.geosite)]
  | .commit now _ => [(now,.geoip),(now,.geosite)]
  | _ => []

/-- A downloaded file lies in the temporary directory. -/
def Held (w : World) (o : Origins) (p : RoutingProfile) (now : ℤ) (asset : Asset) : Prop :=
  (w.disk.lookup (.routingGeo p.groupId p.id (tmpVersion now) asset.file)).isSome ∧
    o p.groupId p.id (tmpVersion now) asset.file = wanted geoURLs p asset

structure Ready (w : World) (o : Origins) (k : Worker) : Prop where
  formed : ∀ c ∈ k.copies, Formed geoURLs c.profile
  set : downloads k.phase = true → ∀ urls, geoURLs k.copy.profile.rawJSON = some urls → ¬Unset urls
  fetched : ∀ e ∈ fetched k.phase, Held geoURLs w o k.copy.profile e.1 e.2
  backed : Phase.saves k.phase = true → Backed geoURLs w o k.copy.profile
  latest : ∀ now latest, k.phase = .commit now latest →
    latest.profile.groupId = k.copy.profile.groupId ∧ latest.profile.id = k.copy.profile.id
  failed : k.phase = .fail → k.copy.profile.state = "error"

/-- The files and origins of other directories are as before. -/
structure Within (T : ℤ → String → String → Prop) (w : World) (o : Origins) (w' : World)
    (o' : Origins) : Prop extends Touches T w w' where
  origins : ∀ g i v f, ¬T g i v → o' g i v f = o g i v f

end Predicates

section Framing

variable {geoURLs : RawMessage → Option (String × String)} {T : ℤ → String → String → Prop}
  {w w' : World} {o o' : Origins} {p : RoutingProfile}

theorem backed_within (h : Within T w o w' o') (hb : Backed geoURLs w o p)
    (hT : ∀ now, p.geoDir = geoDirOf p.groupId p.id now → ¬T p.groupId p.id (toString now)) :
    Backed geoURLs w' o' p := by
  intro hp
  obtain ⟨now,urls,hdir,hurls,hd,hassets⟩ := hb hp
  refine ⟨now,urls,hdir,hurls,?_,fun asset => ?_⟩
  · rwa [h.dirs _ _ _ (hT now hdir)]
  · rw [h.files _ _ _ _ (hT now hdir),h.origins _ _ _ _ (hT now hdir)]
    exact hassets asset

theorem held_within (h : Within T w o w' o') {now : ℤ} {asset : Asset}
    (hh : Held geoURLs w o p now asset) (hT : ¬T p.groupId p.id (tmpVersion now)) :
    Held geoURLs w' o' p now asset := by
  unfold Held at hh ⊢
  rwa [h.files _ _ _ _ hT,h.origins _ _ _ _ hT]

theorem within_quiet (h : Touches NoDir w w') (o : Origins) : Within NoDir w o w' o :=
  ⟨h,fun _ _ _ _ _ => rfl⟩

theorem fetched_download {k : Worker} {e : ℤ × Asset} (he : e ∈ fetched k.phase) :
    download k = some (k.copy.profile.groupId,k.copy.profile.id,e.1) := by
  unfold download
  cases hp : k.phase with
  | fetch now asset =>
    rw [hp] at he
    cases asset with
    | geoip => exact nomatch he
    | geosite => rw [List.mem_singleton.mp he]
  | reload now =>
    rw [hp] at he
    have h1 : e.1 = now := by
      rcases List.mem_cons.mp he with rfl | he
      · rfl
      · rw [List.mem_singleton.mp he]
    rw [h1]
  | commit now latest =>
    rw [hp] at he
    have h1 : e.1 = now := by
      rcases List.mem_cons.mp he with rfl | he
      · rfl
      · rw [List.mem_singleton.mp he]
    rw [h1]
  | _ => rw [hp] at he; exact nomatch he

/-- A worker another one's step leaves alone. -/
theorem ready_within {k : Worker} (h : Within T w o w' o') (hk : Ready geoURLs w o k)
    (htmp : ∀ d, download k = some d → ¬T d.1 d.2.1 (tmpVersion d.2.2))
    (hversion : Phase.saves k.phase = true → ∀ now,
      k.copy.profile.geoDir = geoDirOf k.copy.profile.groupId k.copy.profile.id now →
        ¬T k.copy.profile.groupId k.copy.profile.id (toString now)) : Ready geoURLs w' o' k where
  formed := hk.formed
  set := hk.set
  fetched e he := held_within h (hk.fetched e he) (htmp _ (fetched_download he))
  backed hs := backed_within h (hk.backed hs) (hversion hs)
  latest := hk.latest
  failed := hk.failed

theorem formed_edit {q : RoutingProfile} (h : Formed geoURLs p) (hid : q.id = p.id)
    (hgid : q.groupId = p.groupId) (hraw : q.rawJSON = p.rawJSON)
    (hdir : q.geoDir = p.geoDir ∨ q.geoDir = "") : Formed geoURLs q where
  plain := hid ▸ h.plain
  urls := by
    obtain ⟨urls,hu,hn⟩ := h.urls
    refine ⟨urls,hraw ▸ hu,fun he => ?_⟩
    rcases hdir with hd | hd
    · exact hd.trans (hn he)
    · exact hd
  dir hne := by
    have hd := hdir.resolve_right hne
    obtain ⟨now,hnow⟩ := h.dir (hd ▸ hne)
    exact ⟨now,by rw [hd,hnow,hid,hgid]⟩

end Framing

section Steps

variable {geoURLs : RawMessage → Option (String × String)}

/-- What a step of a worker may do: other profiles and other directories are
left alone, and what it goes on with is ready. -/
structure Stepped (geoURLs : RawMessage → Option (String × String))
    (T : ℤ → String → String → Prop) (w : World) (o : Origins) (ds : List Download) (k : Worker)
    (w' : World) (o' : Origins) (ds' : List Download) (next : Option Worker) : Prop where
  within : Within T w o w' o'
  filed : Filed w'
  profiles : ∀ g i p, profileOn w' g i = some p → profileOn w g i = some p ∨
    (Formed geoURLs p ∧ (p.state = "ready" → Backed geoURLs w' o' p))
  started : ∀ d ∈ ds, d ∈ ds'
  ready : ∀ j, next = some j → Ready geoURLs w' o' j
  own : ∀ j d, next = some j → download j = some d → d ∈ ds' ∧ (download k = some d ∨ d ∉ ds)
  tmp : ∀ g i n, T g i (tmpVersion n) → download k = some (g,i,n) ∨ (g,i,n) ∉ ds
  version : ∀ p now, Backed geoURLs w o p → p.geoDir = geoDirOf p.groupId p.id now →
    T p.groupId p.id (toString now) → ∃ current, k.phase = .prune current ∧
      p.groupId = k.copy.profile.groupId ∧ p.id = k.copy.profile.id ∧
      toString now ∈ outdated p.groupId p.id (toString current) w

variable {w w' : World} {o : Origins} {ds : List Download} {k : Worker}

theorem downloads_of_fetched {phase : Phase} {e : ℤ × Asset} (h : e ∈ fetched phase) :
    downloads phase = true := by
  cases phase with
  | fetch now asset => rfl
  | reload now => rfl
  | commit now latest => rfl
  | _ => exact nomatch h

theorem ready_rest {j : Worker} (hf : ∀ c ∈ j.copies, Formed geoURLs c.profile)
    (hd : downloads j.phase = false) (hs : Phase.saves j.phase = false)
    (hfail : j.phase ≠ .fail) : Ready geoURLs w o j where
  formed := hf
  set h := absurd (hd.symm.trans h) nofun
  fetched e he := absurd (hd.symm.trans (downloads_of_fetched he)) nofun
  backed h := absurd (hs.symm.trans h) nofun
  latest now latest h := by
    rw [h] at hd
    exact nomatch hd
  failed h := absurd h hfail

theorem formed_to {phase : Phase} (hp : phase.copies = [])
    (h : ∀ c ∈ k.copies, Formed geoURLs c.profile) :
    ∀ c ∈ (k.to phase).copies, Formed geoURLs c.profile := by
  intro c hc
  refine h c ?_
  simp only [Worker.copies,Worker.to,hp,List.append_nil,List.mem_cons] at hc ⊢
  exact hc.imp_right fun hr => List.mem_append_left _ hr

theorem formed_edited {f : RoutingProfile → RoutingProfile} {phase : Phase}
    (hp : phase.copies = []) (hf : Formed geoURLs (f k.copy.profile))
    (h : ∀ c ∈ k.copies, Formed geoURLs c.profile) :
    ∀ c ∈ ((k.edit f).to phase).copies, Formed geoURLs c.profile := by
  intro c hc
  simp only [Worker.copies,Worker.to,Worker.edit,hp,List.append_nil,List.mem_cons] at hc
  rcases hc with rfl | hr
  · exact hf
  · exact h c (by simp [Worker.copies,hr])

theorem download_rest {j : Worker} (hd : downloads j.phase = false)
    (ha : ∀ now, j.phase ≠ .abandon now) (hc : ∀ now err, j.phase ≠ .cleanup now err) :
    download j = none := by
  unfold download
  cases hp : j.phase with
  | fetch now asset => rw [hp] at hd; exact nomatch hd
  | reload now => rw [hp] at hd; exact nomatch hd
  | commit now latest => rw [hp] at hd; exact nomatch hd
  | abandon now => exact absurd hp (ha now)
  | cleanup now err => exact absurd hp (hc now err)
  | _ => rfl

/-- A step that touches no geo directory. -/
theorem stepped_quiet {next : Option Worker} (ht : Touches NoDir w w') (hf : Filed w')
    (hp : ∀ g i p, profileOn w' g i = some p → profileOn w g i = some p ∨
      (Formed geoURLs p ∧ (p.state = "ready" → Backed geoURLs w o p)))
    (hr : ∀ j, next = some j → Ready geoURLs w' o j)
    (hd : ∀ j d, next = some j → download j = some d → download k = some d ∧ d ∈ ds) :
    Stepped geoURLs NoDir w o ds k w' o ds next where
  within := within_quiet ht o
  filed := hf
  profiles g i p h := (hp g i p h).imp_right fun hp => ⟨hp.1,fun hs =>
    backed_within (within_quiet ht o) (hp.2 hs) fun _ _ h => h⟩
  started _ h := h
  ready := hr
  own j d hj hdj := ⟨(hd j d hj hdj).2,.inl (hd j d hj hdj).1⟩
  tmp _ _ _ h := False.elim h
  version _ _ _ _ h := False.elim h

/-- A step that leaves database and record alone. -/
theorem stepped_self {next : Option Worker} (hf : Filed w)
    (hr : ∀ j, next = some j → Ready geoURLs w o j)
    (hd : ∀ j d, next = some j → download j = some d → download k = some d ∧ d ∈ ds) :
    Stepped geoURLs NoDir w o ds k w o ds next :=
  stepped_quiet (touches_refl w) hf (fun _ _ _ h => .inl h) hr hd

/-- A save of a copy that is not ready, or has its files. -/
theorem stepped_save {p : RoutingProfile} {j : Worker} (hf : Filed w) (hp : Formed geoURLs p)
    (hb : p.state = "ready" → Backed geoURLs w o p)
    (hj : ∀ c ∈ j.copies, Formed geoURLs c.profile)
    (hd : downloads j.phase = false) (hs : Phase.saves j.phase = false)
    (hfail : j.phase ≠ .fail) (hn : download j = none) :
    Stepped geoURLs NoDir w o ds k (saveRoutingProfile p w).2 o ds (some j) := by
  refine stepped_quiet (touches_save p) (saves_saveRoutingProfile p hf).filed
    (fun g i q h => ?_) (fun j' h => ?_) fun j' d h hdl => ?_
  · exact (profileOn_save hf h).imp_right fun ⟨he,_,_⟩ => he ▸ ⟨hp,hb⟩
  · exact Option.some.inj h ▸ ready_rest hj hd hs hfail
  · rw [← Option.some.inj h,hn] at hdl
    exact nomatch hdl

theorem copy_formed (hk : Ready geoURLs w o k) : Formed geoURLs k.copy.profile :=
  hk.formed k.copy (by simp [Worker.copies])

/-- The worker is done with this profile. -/
theorem stepped_report (hf : Filed w) (hk : Ready geoURLs w o k) :
    Stepped geoURLs NoDir w o ds k w o ds (some (k.to .report)) := by
  refine stepped_self hf (fun j h => ?_) fun j d h hd => ?_
  · exact Option.some.inj h ▸ ready_rest (formed_to rfl hk.formed) rfl rfl nofun
  · rw [← Option.some.inj h] at hd
    exact nomatch hd

theorem stepped_announce (hf : Filed w) (hk : Ready geoURLs w o k) :
    Stepped geoURLs NoDir w o ds k (saveRoutingProfile (announced k.copy.profile) w).2 o ds
      (some ((k.edit announced).to .ensure)) := by
  have hp : Formed geoURLs (announced k.copy.profile) :=
    formed_edit (copy_formed hk) rfl rfl rfl (.inl rfl)
  refine stepped_save hf hp (fun h => ?_) (formed_edited rfl hp hk.formed) rfl rfl
    nofun rfl
  exact absurd h (by simp [announced])

/-- The gate found both files under the directory the profile names. -/
theorem backed_gated {now : ℤ} {p : RoutingProfile}
    (hh : ∀ g i v f, (w.disk.lookup (.routingGeo g i v f)).isSome →
      (w.disk.lookup (.routingGeoDir g i v)).isSome)
    (hp : Formed geoURLs p) (hg : gated now p w = true)
    (hc : ∀ now, p.geoDir = geoDirOf p.groupId p.id now → ∀ asset : Asset,
      o p.groupId p.id (toString now) asset.file = wanted geoURLs p asset) :
    Backed geoURLs w o (readied p) := by
  intro hne
  obtain ⟨n,hdir⟩ := hp.dir hne
  obtain ⟨urls,hurls,-⟩ := hp.urls
  simp only [gated,Bool.and_eq_true,hdir] at hg
  have hassets : ∀ asset : Asset,
      (w.disk.lookup (.routingGeo p.groupId p.id (toString n) asset.file)).isSome := fun asset => by
    cases asset with
    | geoip => exact asset_of_exists hp.plain hg.1.2
    | geosite => exact asset_of_exists hp.plain hg.2
  refine ⟨n,urls,hdir,hurls,hh _ _ _ _ (hassets .geoip),fun asset => ⟨hassets asset,?_⟩⟩
  rw [show (readied p).groupId = p.groupId from rfl,show (readied p).id = p.id from rfl,
    hc n hdir asset,wanted,hurls]
  rfl

theorem stepped_ensure (i : Input)
    (hh : ∀ g i v f, (w.disk.lookup (.routingGeo g i v f)).isSome →
      (w.disk.lookup (.routingGeoDir g i v)).isSome)
    (hf : Filed w) (hk : Ready geoURLs w o k) (hphase : k.phase = .ensure)
    (hc : gated i.now k.copy.profile w = true → ∀ now,
      k.copy.profile.geoDir = geoDirOf k.copy.profile.groupId k.copy.profile.id now →
        ∀ asset : Asset, o k.copy.profile.groupId k.copy.profile.id (toString now) asset.file =
          wanted geoURLs k.copy.profile asset) :
    Stepped geoURLs NoDir w o ds k (k.step geoURLs i w).1 o ds (k.step geoURLs i w).2 := by
  have hp := copy_formed hk
  simp only [Worker.step,hphase]
  split
  · exact stepped_report hf hk
  · rename_i geoipURL geositeURL hurls
    have hgo : ∀ {j : Worker} {next : Option Worker}, next = some j →
        Ready geoURLs w o j → download j = none → Stepped geoURLs NoDir w o ds k w o ds next := by
      intro j next hn hj hd
      subst hn
      refine stepped_self hf (fun j' h => Option.some.inj h ▸ hj) fun j' d h hd' => ?_
      rw [← Option.some.inj h,hd] at hd'
      cases hd'
    split_ifs with hunset hgate
    · have hlocal : Formed geoURLs (readied { k.copy.profile with geoDir := "" }) :=
        formed_edit hp rfl rfl rfl (.inr rfl)
      refine hgo rfl ⟨formed_edited rfl hlocal hk.formed,(by rintro ⟨⟩),(by rintro _ ⟨⟩),
        fun _ h => ?_,(by rintro _ _ ⟨⟩),(by rintro ⟨⟩)⟩ rfl
      exact absurd rfl h
    · have hready : Formed geoURLs (readied k.copy.profile) :=
        formed_edit hp rfl rfl rfl (.inl rfl)
      exact hgo rfl ⟨formed_edited rfl hready hk.formed,(by rintro ⟨⟩),(by rintro _ ⟨⟩),
        fun _ => backed_gated hh hp hgate (hc hgate),(by rintro _ _ ⟨⟩),(by rintro ⟨⟩)⟩ rfl
    · refine hgo rfl ⟨formed_to rfl hk.formed,fun _ urls hu => ?_,(by rintro _ ⟨⟩),
        (by rintro ⟨⟩),(by rintro _ _ ⟨⟩),(by rintro ⟨⟩)⟩ rfl
      rw [show (k.to (.prepare i.now)).copy = k.copy from rfl,hurls] at hu
      obtain rfl := Option.some.inj hu
      exact hunset

theorem stepped_settle (hf : Filed w) (hk : Ready geoURLs w o k)
    (hs : Phase.saves k.phase = true) {phase : Phase} (hp : phase.copies = [])
    (hd : downloads phase = false) (hsave : Phase.saves phase = false) (hfail : phase ≠ .fail)
    (hn : download (k.to phase) = none) :
    Stepped geoURLs NoDir w o ds k (saveRoutingProfile k.copy.profile w).2 o ds
      (some (k.to phase)) :=
  stepped_save hf (copy_formed hk) (fun _ => hk.backed hs) (formed_to hp hk.formed) hd hsave hfail
    hn

theorem profileOn_quiet (h : Quiet w w') (hf : Filed w) (g : ℤ) (i : String) :
    profileOn w' g i = profileOn w g i := profileOn_congr (h hf).key ((h hf).profiles g i)

/-- A download that fails keeps its directory until the cleanup. -/
theorem stepped_giveUp (hf : Filed w) (hk : Ready geoURLs w o k) {now : ℤ} {err : String}
    (hd : download k = some (k.copy.profile.groupId,k.copy.profile.id,now))
    (hds : ∀ d, download k = some d → d ∈ ds) :
    Stepped geoURLs NoDir w o ds k w o ds (some (k.to (.cleanup now err))) := by
  refine stepped_self hf (fun j h => ?_) fun j d h hdj => ?_
  · exact Option.some.inj h ▸ ready_rest (formed_to rfl hk.formed) rfl rfl nofun
  · rw [← Option.some.inj h] at hdj
    have hsame : download k = some d := hd.trans hdj
    exact ⟨hsame,hds d hsame⟩

theorem stepped_prepare (i : Input) (hf : Filed w) (hk : Ready geoURLs w o k) {now : ℤ}
    (hphase : k.phase = .prepare now)
    (hc : (k.copy.profile.groupId,k.copy.profile.id,now) ∉ ds) :
    ∃ T, Stepped geoURLs T w o ds k (k.step geoURLs i w).1 (recorded geoURLs i k w o ds).1
      (recorded geoURLs i k w o ds).2 (k.step geoURLs i w).2 := by
  simp only [Worker.step,recorded,hphase]
  by_cases hfault : i.fault = true
  · simp only [if_pos hfault]
    exact ⟨_,stepped_report hf hk⟩
  · simp only [if_neg hfault]
    obtain ⟨hkey,hfiled,hprofiles,-⟩ := calm_mkdirGeo k.copy.profile.groupId k.copy.profile.id
      (tmpVersion now) hf
    refine ⟨_,⟨touches_mkdirGeo,fun _ _ _ _ _ => rfl⟩,hfiled,fun g j p h => ?_,
      fun d hd => List.mem_cons_of_mem _ hd,fun j h => ?_,fun j d h hd => ?_,?_,?_⟩
    · rw [profileOn_congr hkey (hprofiles g j)] at h
      exact .inl h
    · obtain rfl := Option.some.inj h
      exact ⟨formed_to rfl hk.formed,fun _ => hk.set (by rw [hphase]; rfl),(by rintro _ ⟨⟩),
        (by rintro ⟨⟩),(by rintro _ _ ⟨⟩),(by rintro ⟨⟩)⟩
    · obtain rfl := Option.some.inj h
      obtain rfl := Option.some.inj hd
      exact ⟨List.mem_cons_self,.inr hc⟩
    · rintro g j n ⟨rfl,rfl,hn⟩
      obtain rfl := tmpVersion_inj hn
      exact .inr hc
    · rintro p n - - ⟨-,-,hn⟩
      exact absurd hn (numeral_ne_tmp n now)

theorem asset_file_inj {a b : Asset} (h : a.file = b.file) : a = b := by
  cases a <;> cases b <;> first | rfl | exact absurd h (by decide)

theorem stepped_fetch (i : Input) (hf : Filed w) (hk : Ready geoURLs w o k) {now : ℤ}
    {asset : Asset} (hphase : k.phase = .fetch now asset)
    (hds : ∀ d, download k = some d → d ∈ ds) :
    ∃ T, Stepped geoURLs T w o ds k (k.step geoURLs i w).1 (recorded geoURLs i k w o ds).1
      (recorded geoURLs i k w o ds).2 (k.step geoURLs i w).2 := by
  have hdown : download k = some (k.copy.profile.groupId,k.copy.profile.id,now) := by
    rw [download,hphase]
  simp only [Worker.step,recorded,hphase]
  by_cases hfault : i.fault = true
  · simp only [if_pos hfault]
    exact ⟨_,stepped_giveUp hf hk hdown hds⟩
  · simp only [if_neg hfault]
    have hquiet := quiet_writeAsset k.copy.profile.groupId k.copy.profile.id (tmpVersion now)
      asset.file i.bytes w
    rcases hr : writeAsset k.copy.profile.groupId k.copy.profile.id (tmpVersion now) asset.file
      i.bytes w with ⟨e | u,w'⟩ <;> rw [hr] at hquiet
    · obtain rfl := writeAsset_error hr
      exact ⟨_,stepped_giveUp hf hk hdown hds⟩
    · obtain ⟨ht,hwritten⟩ := writeAsset_ok hr
      have horigin : ∀ g j v f, ¬OneDir k.copy.profile.groupId k.copy.profile.id (tmpVersion now)
          g j v → o.obtain k.copy.profile.groupId k.copy.profile.id (tmpVersion now) asset.file
            (wanted geoURLs k.copy.profile asset) g j v f = o g j v f := fun g j v f hn =>
        if_neg fun h => hn ⟨h.1,h.2.1,h.2.2.1⟩
      have hnew : Held geoURLs w' (o.obtain k.copy.profile.groupId k.copy.profile.id
          (tmpVersion now) asset.file (wanted geoURLs k.copy.profile asset)) k.copy.profile now
          asset := by
        refine ⟨?_,if_pos ⟨rfl,rfl,rfl,rfl⟩⟩
        rw [hwritten,if_pos rfl]
        rfl
      have hold : ∀ e ∈ fetched k.phase, e.2 ≠ asset → Held geoURLs w'
          (o.obtain k.copy.profile.groupId k.copy.profile.id (tmpVersion now) asset.file
            (wanted geoURLs k.copy.profile asset)) k.copy.profile e.1 e.2 := by
        intro e he hne
        have hnow : e.1 = now := by
          have hd := (fetched_download he).symm.trans hdown
          simpa using hd
        obtain ⟨hfile,hsource⟩ := hk.fetched e he
        rw [hnow] at hfile hsource ⊢
        refine ⟨?_,?_⟩
        · rwa [hwritten,if_neg fun h => hne (asset_file_inj h)]
        · rw [Origins.obtain,if_neg fun h => hne (asset_file_inj h.2.2.2)]
          exact hsource
      have hset := hk.set (by rw [hphase]; rfl)
      refine ⟨_,⟨ht,horigin⟩,(hquiet hf).filed,fun g j p h => ?_,fun d hd => hd,
        fun j h => ?_,fun j d h hd => ?_,?_,?_⟩
      · rw [profileOn_quiet hquiet hf] at h
        exact .inl h
      · obtain rfl := Option.some.inj h
        cases asset with
        | geoip =>
          refine ⟨formed_to rfl hk.formed,fun _ => hset,fun e he => ?_,nofun,
            (fun _ _ h => nomatch h),nofun⟩
          rw [show e = (now,.geoip) from List.mem_singleton.mp he]
          exact hnew
        | geosite =>
          refine ⟨formed_to rfl hk.formed,fun _ => hset,fun e he => ?_,nofun,
            (fun _ _ h => nomatch h),nofun⟩
          rcases List.mem_cons.mp he with rfl | he
          · exact hold (now,.geoip) (by rw [hphase]; exact List.mem_cons_self) nofun
          · rw [List.mem_singleton.mp he]
            exact hnew
      · obtain rfl := Option.some.inj h
        have hsame : download k = some d := by
          rw [hdown,← hd]
          cases asset <;> rfl
        exact ⟨hds d hsame,.inl hsame⟩
      · rintro g j n ⟨rfl,rfl,hn⟩
        obtain rfl := tmpVersion_inj hn
        exact .inl hdown
      · rintro p n - - ⟨-,-,hn⟩
        exact absurd hn (numeral_ne_tmp n now)

theorem stepped_reload (i : Input) (hf : Filed w) (hk : Ready geoURLs w o k) {now : ℤ}
    (hphase : k.phase = .reload now) (hds : ∀ d, download k = some d → d ∈ ds)
    (hstored : ∀ g i p, profileOn w g i = some p → Formed geoURLs p) :
    Stepped geoURLs NoDir w o ds k (k.step geoURLs i w).1 o ds (k.step geoURLs i w).2 := by
  have hdown : download k = some (k.copy.profile.groupId,k.copy.profile.id,now) := by
    rw [download,hphase]
  have hset := hk.set (by rw [hphase]; rfl)
  have hreads := (readsAs_readEncryptedJSON
    (.routingProfile k.copy.profile.groupId k.copy.profile.id) Payload.asRoutingProfile w).1
  change Reads w (loadRoutingProfile k.copy.profile.groupId k.copy.profile.id w).2 at hreads
  have hgo : ∀ {w' : World} {j : Worker}, Selects w w' → Ready geoURLs w' o j →
      download j = download k → Stepped geoURLs NoDir w o ds k w' o ds (some j) := by
    intro w' j hs hj hd
    refine stepped_quiet hs.touches hs.filed (fun g i p h => .inl (hs.profiles g i ▸ h))
      (fun j' h => Option.some.inj h ▸ hj) fun j' d h hdj => ?_
    rw [← Option.some.inj h,hd] at hdj
    exact ⟨hdj,hds d hdj⟩
  simp only [Worker.step,hphase]
  rcases hr : loadRoutingProfile k.copy.profile.groupId k.copy.profile.id w with
    ⟨e | latest,w'⟩ <;> rw [hr] at hreads
  · refine hgo (selects_reads hf hreads)
      (ready_rest (formed_to rfl hk.formed) rfl rfl (by rintro ⟨⟩)) ?_
    rw [hdown]
    rfl
  · obtain ⟨rfl,hlatest⟩ := load_ok hr
    have hids := filed_routingProfile hf hlatest
    refine hgo (selects_reads hf hreads) ⟨fun c hc => ?_,fun _ => hset,fun e he => ?_,(by rintro ⟨⟩),
      fun n l h => ?_,(by rintro ⟨⟩)⟩ (by rw [hdown]; rfl)
    · simp only [Worker.copies,Worker.to,Phase.copies,List.mem_cons,List.mem_append,
        List.not_mem_nil,or_false] at hc
      rcases hc with rfl | hr' | rfl
      · exact copy_formed hk
      · exact hk.formed c (by simp [Worker.copies,hr'])
      · exact hstored _ _ _ hlatest
    · exact hk.fetched e (by rw [hphase]; exact he)
    · obtain ⟨-,rfl⟩ := Phase.commit.inj h
      exact hids

theorem source_empty {url : String} (h : sourceOf "" = sourceOf url) : trimSpace url = "" := by
  have he : sourceOf "" = .globalAsset := by decide
  rw [he] at h
  unfold sourceOf at h
  split at h
  · assumption
  · exact nomatch h

/-- The files of the new version came from the URLs of the profile it is for. -/
theorem stepped_commit (i : Input) (hf : Filed w) (hk : Ready geoURLs w o k) {now : ℤ}
    {latest : Copy} (hphase : k.phase = .commit now latest)
    (hds : ∀ d, download k = some d → d ∈ ds)
    (hc : ∀ asset, wanted geoURLs latest.profile asset = wanted geoURLs k.copy.profile asset) :
    ∃ T, Stepped geoURLs T w o ds k (k.step geoURLs i w).1 (recorded geoURLs i k w o ds).1
      (recorded geoURLs i k w o ds).2 (k.step geoURLs i w).2 := by
  have hdown : download k = some (k.copy.profile.groupId,k.copy.profile.id,now) := by
    rw [download,hphase]
  simp only [Worker.step,recorded,hphase]
  by_cases hfault : i.fault = true
  · simp only [if_pos hfault]
    exact ⟨_,stepped_giveUp hf hk hdown hds⟩
  · simp only [if_neg hfault]
    have hquiet := quiet_renameGeo k.copy.profile.groupId k.copy.profile.id (tmpVersion now)
      (toString now) w
    rcases hr : renameGeo k.copy.profile.groupId k.copy.profile.id (tmpVersion now) (toString now)
      w with ⟨e | u,w'⟩ <;> rw [hr] at hquiet
    · obtain rfl := renameGeo_error hr
      exact ⟨_,stepped_giveUp hf hk hdown hds⟩
    · obtain ⟨ht,hempty,hdir,hmoved⟩ := renameGeo_ok (numeral_ne_tmp now now).symm hr
      obtain ⟨hgid,hid⟩ := hk.latest now latest hphase
      have hset := hk.set (by rw [hphase]; rfl)
      have hlatest : Formed geoURLs latest.profile :=
        hk.formed latest (by simp [Worker.copies,hphase,Phase.copies])
      obtain ⟨urls,hurls,-⟩ := hlatest.urls
      obtain ⟨own,hown,-⟩ := (copy_formed hk).urls
      have hsame : ∀ asset, assetSource urls asset = assetSource own asset := fun asset => by
        have h := hc asset
        rw [wanted,wanted,hurls,hown] at h
        exact Option.some.inj h
      have hformed : Formed geoURLs (downloaded now latest.profile) := by
        refine ⟨hlatest.plain,⟨urls,hurls,fun he => ?_⟩,fun _ => ⟨now,rfl⟩⟩
        -- the worker would not have started a download for a profile without URLs
        have hunset : Unset own := by
          rw [he] at hsame
          exact ⟨source_empty (hsame .geoip),source_empty (hsame .geosite)⟩
        exact absurd hunset (hset own hown)
      have hbacked : Backed geoURLs w' (o.move k.copy.profile.groupId k.copy.profile.id
          (tmpVersion now) (toString now)) (downloaded now latest.profile) := by
        refine fun _ => ⟨now,urls,rfl,hurls,?_,fun asset => ?_⟩
        · show (w'.disk.lookup (.routingGeoDir latest.profile.groupId latest.profile.id _)).isSome
          rwa [hgid,hid]
        · have hfetched : (now,asset) ∈ fetched k.phase := by
            rw [hphase]
            cases asset <;> simp [fetched]
          obtain ⟨hfile,hsource⟩ := hk.fetched _ hfetched
          show (w'.disk.lookup (.routingGeo latest.profile.groupId latest.profile.id _ _)).isSome ∧
            Origins.move o _ _ _ _ latest.profile.groupId latest.profile.id _ _ = _
          rw [hgid,hid,hmoved]
          refine ⟨hfile,?_⟩
          rw [Origins.move,if_pos ⟨rfl,rfl,rfl⟩,hsource,← hc asset,wanted,hurls]
          rfl
      refine ⟨_,⟨ht,fun g j v f hn => if_neg fun h => hn (.inr h)⟩,(hquiet hf).filed,
        fun g j p h => ?_,fun d hd => hd,fun j h => ?_,fun j d h hd => ?_,?_,?_⟩
      · rw [profileOn_quiet hquiet hf] at h
        exact .inl h
      · obtain rfl := Option.some.inj h
        refine ⟨fun c hm => ?_,(by rintro ⟨⟩),(by rintro _ ⟨⟩),fun _ => hbacked,
          (by rintro _ _ ⟨⟩),(by rintro ⟨⟩)⟩
        simp only [Worker.copies,Phase.copies,List.append_nil,List.mem_cons] at hm
        rcases hm with rfl | hr'
        · exact hformed
        · exact hk.formed c (by simp [Worker.copies,hr'])
      · obtain rfl := Option.some.inj h
        cases hd
      · rintro g j n (⟨rfl,rfl,hn⟩ | ⟨-,-,hn⟩)
        · obtain rfl := tmpVersion_inj hn
          exact .inl hdown
        · exact absurd hn.symm (numeral_ne_tmp now n)
      · rintro p n hb hp (⟨-,-,hn⟩ | ⟨hg,hi,hn⟩)
        · exact absurd hn (numeral_ne_tmp n now)
        · -- a version that backs a profile has files, so the rename would have failed
          obtain ⟨m,_,hm,-,-,hassets⟩ := hb (hp ▸ geoDirOf_ne _ _ _)
          have hnm := geoDirOf_inj (hp.symm.trans hm)
          have hfile := (hassets .geoip).1
          rw [← hnm,hn,hg,hi,hempty] at hfile
          cases hfile

theorem stepped_save_phase (i : Input) (hf : Filed w) (hk : Ready geoURLs w o k) {now : ℤ}
    (hphase : k.phase = .save now) :
    Stepped geoURLs NoDir w o ds k (k.step geoURLs i w).1 o ds (k.step geoURLs i w).2 := by
  have hsaves : Phase.saves k.phase = true := by rw [hphase]; rfl
  have hprune := @stepped_settle geoURLs w o ds k hf hk hsaves (.prune now) rfl rfl rfl nofun rfl
  have hreport := @stepped_settle geoURLs w o ds k hf hk hsaves .report rfl rfl rfl nofun rfl
  simp only [Worker.step,hphase]
  rcases hr : saveRoutingProfile k.copy.profile w with ⟨e | u,w'⟩ <;> rw [hr] at hprune hreport
  · exact hreport
  · exact hprune

theorem stepped_prune (i : Input) (hf : Filed w) (hk : Ready geoURLs w o k) {now : ℤ}
    (hphase : k.phase = .prune now) :
    ∃ T, Stepped geoURLs T w o ds k (k.step geoURLs i w).1 o ds (k.step geoURLs i w).2 := by
  have hquiet := quiet_pruneOldGeoDirs k.copy.profile.groupId k.copy.profile.id (toString now) w
  simp only [Worker.step,hphase]
  refine ⟨_,⟨touches_prune,fun _ _ _ _ _ => rfl⟩,(hquiet hf).filed,fun g j p h => ?_,
    fun d hd => hd,fun j h => ?_,fun j d h hd => ?_,?_,?_⟩
  · rw [profileOn_quiet hquiet hf] at h
    exact .inl h
  · obtain rfl := Option.some.inj h
    exact ready_rest (formed_to rfl hk.formed) rfl rfl (by rintro ⟨⟩)
  · obtain rfl := Option.some.inj h
    cases hd
  · rintro g j n ⟨-,-,hn⟩
    exact absurd rfl ((outdated_spares hn).2 n)
  · rintro p n - - ⟨hg,hi,hn⟩
    exact ⟨now,hphase,hg,hi,by rw [hg,hi]; exact hn⟩

/-- The temporary directory of a download is removed. -/
theorem stepped_remove {now : ℤ} {j : Worker} (hf : Filed w)
    (hdown : download k = some (k.copy.profile.groupId,k.copy.profile.id,now))
    (hj : ∀ w', Ready geoURLs w' o j) (hn : download j = none) :
    Stepped geoURLs (OneDir k.copy.profile.groupId k.copy.profile.id (tmpVersion now)) w o ds k
      (removeGeoDir k.copy.profile.groupId k.copy.profile.id (tmpVersion now) w).2 o ds
      (some j) := by
  have hquiet := quiet_removeGeoDir k.copy.profile.groupId k.copy.profile.id (tmpVersion now) w
  refine ⟨⟨touches_removeGeoDir,fun _ _ _ _ _ => rfl⟩,(hquiet hf).filed,fun g i p h => ?_,
    fun d hd => hd,fun j' h => ?_,fun j' d h hdj => ?_,?_,?_⟩
  · rw [profileOn_quiet hquiet hf] at h
    exact .inl h
  · exact Option.some.inj h ▸ hj _
  · rw [← Option.some.inj h,hn] at hdj
    exact nomatch hdj
  · rintro g i n ⟨rfl,rfl,hm⟩
    obtain rfl := tmpVersion_inj hm
    exact .inl hdown
  · rintro p n - - ⟨-,-,hm⟩
    exact absurd hm (numeral_ne_tmp n now)

theorem formed_next {j : Worker} (hj : k.next = some j)
    (h : ∀ c ∈ k.copies, Formed geoURLs c.profile) : ∀ c ∈ j.copies, Formed geoURLs c.profile := by
  intro c hc
  unfold Worker.next at hj
  cases hr : k.rest with
  | nil => simp [hr] at hj
  | cons d ds =>
    simp only [hr,Option.some.injEq] at hj
    subst hj
    refine h c ?_
    simp only [Worker.copies,Phase.copies,List.append_nil,List.mem_cons] at hc
    simp only [Worker.copies,hr,List.mem_cons,List.mem_append]
    exact Or.inr (Or.inl hc)

theorem next_ensure {j : Worker} (hj : k.next = some j) : j.phase = .ensure := by
  unfold Worker.next at hj
  cases hr : k.rest with
  | nil => simp [hr] at hj
  | cons d ds =>
    simp only [hr,Option.some.injEq] at hj
    exact hj ▸ rfl

theorem stepped_next (i : Input) (hf : Filed w) (hk : Ready geoURLs w o k)
    (hphase : k.phase = .report) :
    Stepped geoURLs NoDir w o ds k (k.step geoURLs i w).1 o ds (k.step geoURLs i w).2 := by
  have hs := selects_reportGeo hf k
  simp only [Worker.step,hphase]
  refine stepped_quiet hs.touches hs.filed (fun g i p h => .inl (hs.profiles g i ▸ h))
    (fun j h => ?_) fun j d h hd => ?_
  · exact ready_rest (formed_next h hk.formed) (by rw [next_ensure h]; rfl)
      (by rw [next_ensure h]; rfl) (by rw [next_ensure h]; rintro ⟨⟩)
  · rw [download,next_ensure h] at hd
    cases hd

end Steps

section Invariant

variable (geoURLs : RawMessage → Option (String × String))

structure JobFine (job : Job) : Prop where
  links : ∀ link ∈ job.links, ∀ l, link = some l → Parsed geoURLs l
  found : ∀ c ∈ job.found, Formed geoURLs c.profile

/-- What an import is about to save has no files, or is not ready. -/
def CommandFine : Command → Prop
  | .lookup job => JobFine geoURLs job
  | .save job p _ _ =>
    JobFine geoURLs job ∧ Formed geoURLs p ∧ (p.state = "ready" → p.geoDir = "")
  | .select job _ _ _ => JobFine geoURLs job
  | .delete _ _ => False
  | _ => True

def Apart (a b : Worker) : Prop := ∀ d, download a = some d → download b ≠ some d

structure Inv (t : Traced) : Prop where
  filed : Filed t.sys.world
  housed : ∀ g i v f, (t.sys.world.disk.lookup (.routingGeo g i v f)).isSome →
    (t.sys.world.disk.lookup (.routingGeoDir g i v)).isSome
  stored : ∀ g i p, profileOn t.sys.world g i = some p → Formed geoURLs p ∧
    (p.state = "ready" → Backed geoURLs t.sys.world t.origin p)
  command : CommandFine geoURLs t.sys.command
  workers : ∀ k ∈ t.sys.workers, Ready geoURLs t.sys.world t.origin k
  apart : t.sys.workers.Pairwise Apart
  started : ∀ k ∈ t.sys.workers, ∀ d, download k = some d → d ∈ t.started

variable {geoURLs} {t t' : Traced}

theorem obtained_of_inv (h : Inv geoURLs t) : Obtained geoURLs t where
  ready g i p hp hs := (h.stored g i p hp).2 hs
  unset g i p hp hu := by
    obtain ⟨urls,hurls,hn⟩ := (h.stored g i p hp).1.urls
    obtain rfl := Option.some.inj (hurls.symm.trans hu)
    exact hn rfl

/-- The step of one worker, in a state where the invariant holds. -/
theorem worker_stepped (hi : Inv geoURLs t) (i : Input) {k : Worker} (hm : k ∈ t.sys.workers)
    (hc : CarefulStep geoURLs t i k) :
    ∃ T, Stepped geoURLs T t.sys.world t.origin t.started k (k.step geoURLs i t.sys.world).1
      (recorded geoURLs i k t.sys.world t.origin t.started).1
      (recorded geoURLs i k t.sys.world t.origin t.started).2
      (k.step geoURLs i t.sys.world).2 := by
  have hk := hi.workers k hm
  have hds := hi.started k hm
  have hsame : (∀ now, k.phase ≠ .prepare now) → (∀ now a, k.phase ≠ .fetch now a) →
      (∀ now l, k.phase ≠ .commit now l) →
      recorded geoURLs i k t.sys.world t.origin t.started = (t.origin,t.started) := by
    intro h1 h2 h3
    unfold recorded
    cases hp : k.phase with
    | prepare now => exact absurd hp (h1 now)
    | fetch now a => exact absurd hp (h2 now a)
    | commit now l => exact absurd hp (h3 now l)
    | _ => rfl
  cases hphase : k.phase with
  | announce =>
    rw [hsame (by simp [hphase]) (by simp [hphase]) (by simp [hphase])]
    simp only [Worker.step,hphase]
    exact ⟨_,stepped_announce hi.filed hk⟩
  | ensure =>
    rw [hsame (by simp [hphase]) (by simp [hphase]) (by simp [hphase])]
    simp only [CarefulStep,hphase] at hc
    exact ⟨_,stepped_ensure i hi.housed hi.filed hk hphase hc⟩
  | settle =>
    rw [hsame (by simp [hphase]) (by simp [hphase]) (by simp [hphase])]
    simp only [Worker.step,hphase]
    exact ⟨_,stepped_settle hi.filed hk (by rw [hphase]; rfl) rfl rfl rfl (by rintro ⟨⟩) rfl⟩
  | prepare now =>
    simp only [CarefulStep,hphase] at hc
    exact stepped_prepare i hi.filed hk hphase hc
  | fetch now asset => exact stepped_fetch i hi.filed hk hphase hds
  | reload now =>
    rw [hsame (by simp [hphase]) (by simp [hphase]) (by simp [hphase])]
    exact ⟨_,stepped_reload i hi.filed hk hphase hds fun g i p hp => (hi.stored g i p hp).1⟩
  | commit now latest =>
    simp only [CarefulStep,hphase] at hc
    exact stepped_commit i hi.filed hk hphase hds hc
  | save now =>
    rw [hsame (by simp [hphase]) (by simp [hphase]) (by simp [hphase])]
    exact ⟨_,stepped_save_phase i hi.filed hk hphase⟩
  | prune now =>
    rw [hsame (by simp [hphase]) (by simp [hphase]) (by simp [hphase])]
    exact stepped_prune i hi.filed hk hphase
  | abandon now =>
    rw [hsame (by simp [hphase]) (by simp [hphase]) (by simp [hphase])]
    simp only [Worker.step,hphase]
    exact ⟨_,stepped_remove hi.filed (by rw [download,hphase])
      (fun _ => ready_rest (formed_to rfl hk.formed) rfl rfl (by rintro ⟨⟩)) rfl⟩
  | cleanup now err =>
    rw [hsame (by simp [hphase]) (by simp [hphase]) (by simp [hphase])]
    simp only [Worker.step,hphase]
    have hfailed : Formed geoURLs (failed err k.copy.profile) :=
      formed_edit (copy_formed hk) rfl rfl rfl (.inl rfl)
    exact ⟨_,stepped_remove hi.filed (by rw [download,hphase])
      (fun _ => ⟨formed_edited rfl hfailed hk.formed,(by rintro ⟨⟩),(by rintro _ ⟨⟩),
        (by rintro ⟨⟩),(by rintro _ _ ⟨⟩),fun _ => rfl⟩) rfl⟩
  | fail =>
    rw [hsame (by simp [hphase]) (by simp [hphase]) (by simp [hphase])]
    simp only [Worker.step,hphase]
    have herror : k.copy.profile.state ≠ "ready" := by
      rw [hk.failed hphase]
      decide
    exact ⟨_,stepped_save hi.filed (copy_formed hk) (fun h => absurd h herror)
      (formed_to rfl hk.formed) rfl rfl (by rintro ⟨⟩) rfl⟩
  | report =>
    rw [hsame (by simp [hphase]) (by simp [hphase]) (by simp [hphase])]
    exact ⟨_,stepped_next i hi.filed hk hphase⟩

theorem apart_symm {a b : Worker} (h : Apart a b) : Apart b a := fun d hb ha => h d ha hb

/-- One worker is replaced by what its step goes on with. -/
theorem inv_replace (hi : Inv geoURLs t) {T : ℤ → String → String → Prop} {k : Worker}
    {l₁ l₂ : List Worker} (hl : t.sys.workers = l₁ ++ k::l₂) {w' : World} {o' : Origins}
    {ds' : List Download} {next : Option Worker}
    (h : Stepped geoURLs T t.sys.world t.origin t.started k w' o' ds' next)
    (hprune : ∀ now, k.phase = .prune now → ∀ n : ℤ,
      toString n ∈ outdated k.copy.profile.groupId k.copy.profile.id (toString now) t.sys.world →
        (∀ q, profileOn t.sys.world k.copy.profile.groupId k.copy.profile.id = some q →
          q.geoDir ≠ geoDirOf k.copy.profile.groupId k.copy.profile.id n) ∧
        ∀ j ∈ t.sys.workers, Phase.saves j.phase = true →
          j.copy.profile.geoDir ≠ geoDirOf k.copy.profile.groupId k.copy.profile.id n) :
    Inv geoURLs ⟨{ t.sys with world := w', workers := l₁ ++ (next.toList ++ l₂) },o',ds'⟩ := by
  have hpair := hi.apart
  rw [hl,List.pairwise_append,List.pairwise_cons] at hpair
  obtain ⟨h₁,⟨hk₂,h₂⟩,h₁₂⟩ := hpair
  have hother : ∀ j ∈ l₁ ++ l₂, j ∈ t.sys.workers ∧ Apart j k := by
    intro j hj
    rw [hl]
    rcases List.mem_append.mp hj with hj | hj
    · exact ⟨List.mem_append_left _ hj,h₁₂ j hj k List.mem_cons_self⟩
    · exact ⟨List.mem_append_right _ (List.mem_cons_of_mem _ hj),apart_symm (hk₂ j hj)⟩
  have hnext : ∀ j ∈ l₁ ++ l₂, ∀ j', next = some j' → Apart j j' := by
    intro j hj j' hn d hd hd'
    rcases (h.own j' d hn hd').2 with hk | hk
    · exact (hother j hj).2 d hd hk
    · exact hk (hi.started j (hother j hj).1 d hd)
  have hready : ∀ j ∈ l₁ ++ l₂, Ready geoURLs w' o' j := by
    intro j hj
    have hjw := (hother j hj).1
    refine ready_within h.within (hi.workers j hjw) (fun d hd hT => ?_) fun hs now hdir hT => ?_
    · rcases h.tmp _ _ _ hT with hk | hk
      · exact (hother j hj).2 d hd hk
      · exact hk (hi.started j hjw d hd)
    · obtain ⟨current,hphase,hg,hid,hout⟩ :=
        h.version _ now ((hi.workers j hjw).backed hs) hdir hT
      rw [hg,hid] at hdir hout
      exact (hprune current hphase now hout).2 j hjw hs hdir
  refine ⟨h.filed,h.within.housed hi.housed,fun g i p hp => ?_,hi.command,fun j hj => ?_,?_,
    fun j hj d hd => ?_⟩
  · rcases h.profiles g i p hp with hold | hnew
    · obtain ⟨hf,hb⟩ := hi.stored g i p hold
      refine ⟨hf,fun hs => backed_within h.within (hb hs) fun now hdir hT => ?_⟩
      obtain ⟨current,hphase,hg,hid,hout⟩ := h.version _ now (hb hs) hdir hT
      obtain ⟨hpg,hpi⟩ := filed_routingProfile hi.filed hold
      rw [hg,hid] at hdir hout
      refine (hprune current hphase now hout).1 p ?_ hdir
      rwa [← hg,← hid,hpg,hpi]
    · exact hnew
  · rcases List.mem_append.mp hj with hj | hj
    · exact hready j (List.mem_append_left _ hj)
    · rcases List.mem_append.mp hj with hj | hj
      · exact h.ready j (Option.mem_toList.mp hj)
      · exact hready j (List.mem_append_right _ hj)
  · refine List.pairwise_append.mpr ⟨h₁,List.pairwise_append.mpr ⟨?_,h₂,?_⟩,?_⟩
    · cases next <;> simp
    · intro a ha b hb
      exact apart_symm (hnext b (List.mem_append_right _ hb) a (Option.mem_toList.mp ha))
    · intro a ha b hb
      rcases List.mem_append.mp hb with hb | hb
      · exact hnext a (List.mem_append_left _ ha) b (Option.mem_toList.mp hb)
      · exact h₁₂ a ha b (List.mem_cons_of_mem _ hb)
  · rcases List.mem_append.mp hj with hj | hj
    · exact h.started d (hi.started j (hother j (List.mem_append_left _ hj)).1 d hd)
    · rcases List.mem_append.mp hj with hj | hj
      · exact (h.own j d (Option.mem_toList.mp hj) hd).1
      · exact h.started d (hi.started j (hother j (List.mem_append_right _ hj)).1 d hd)

theorem split_at {l : List Worker} {n : ℕ} {k : Worker} (h : l[n]? = some k) :
    ∃ l₁ l₂, l = l₁ ++ k::l₂ ∧ (∀ k', l.set n k' = l₁ ++ k'::l₂) ∧ l.eraseIdx n = l₁ ++ l₂ := by
  obtain ⟨hn,rfl⟩ := List.getElem?_eq_some_iff.mp h
  refine ⟨l.take n,l.drop (n+1),?_,fun k' => ?_,?_⟩
  · rw [List.getElem_cons_drop,List.take_append_drop]
  · rw [List.set_eq_take_append_cons_drop,if_pos hn]
  · rw [List.eraseIdx_eq_take_drop_succ]

theorem inv_worker (hi : Inv geoURLs t) (n : ℕ) (i : Input)
    (hc : Careful geoURLs t (.worker n i)) : Inv geoURLs (t.step geoURLs (.worker n i)) := by
  unfold Traced.step Event.step workerStep
  dsimp only
  cases hk : t.sys.workers[n]? with
  | none => exact hi
  | some k =>
    dsimp only
    have hcare := hc k hk
    by_cases hwait : k.phase = .report ∧ t.sys.command ≠ .idle
    · rw [if_pos hwait]
      have hsame : recorded geoURLs i k t.sys.world t.origin t.started = (t.origin,t.started) := by
        rw [recorded,hwait.1]
      rw [hsame]
      exact hi
    · rw [if_neg hwait]
      obtain ⟨l₁,l₂,hl,hset,herase⟩ := split_at hk
      have hmem : k ∈ t.sys.workers := by
        rw [hl]
        simp
      obtain ⟨T,hstep⟩ := worker_stepped hi i hmem hcare
      have hprune : ∀ now, k.phase = .prune now → _ := fun now hp => by
        simp only [CarefulStep,hp] at hcare
        exact hcare
      have hnew := inv_replace hi hl hstep hprune
      rcases hr : k.step geoURLs i t.sys.world with ⟨w,_ | k'⟩ <;> rw [hr] at hnew
      · dsimp only
        rw [herase]
        exact hnew
      · dsimp only
        rw [hset]
        exact hnew

theorem inv_selects (hi : Inv geoURLs t) {w' : World} {command : Command}
    (hs : Selects t.sys.world w') (hc : CommandFine geoURLs command) :
    Inv geoURLs ⟨{ t.sys with world := w', command := command },t.origin,t.started⟩ where
  filed := hs.filed
  housed := hs.touches.housed hi.housed
  stored g i p hp := by
    obtain ⟨hf,hb⟩ := hi.stored g i p (hs.profiles g i ▸ hp)
    exact ⟨hf,fun h => backed_within (within_quiet hs.touches _) (hb h) fun _ _ h => h⟩
  command := hc
  workers k hk := ready_within (within_quiet hs.touches _) (hi.workers k hk) (fun _ _ h => h)
    fun _ _ _ h => h
  apart := hi.apart
  started := hi.started

/-- New workers begin without a download. -/
theorem inv_hire (hi : Inv geoURLs t) {new : List Worker}
    (hn : ∀ k ∈ new, (∀ c ∈ k.copies, Formed geoURLs c.profile) ∧
      (k.phase = .ensure ∨ k.phase = .announce)) :
    Inv geoURLs ⟨{ t.sys with workers := t.sys.workers ++ new },t.origin,t.started⟩ := by
  have hnone : ∀ k ∈ new, download k = none := fun k hk => by
    rcases (hn k hk).2 with h | h <;> rw [download,h]
  refine ⟨hi.filed,hi.housed,hi.stored,hi.command,fun k hk => ?_,?_,fun k hk d hd => ?_⟩
  · rcases List.mem_append.mp hk with hk | hk
    · exact hi.workers k hk
    · refine ready_rest (hn k hk).1 ?_ ?_ ?_ <;> rcases (hn k hk).2 with h | h <;> rw [h] <;>
        first | rfl | nofun
  · refine List.pairwise_append.mpr ⟨hi.apart,?_,fun a _ b hb d _ hd => ?_⟩
    · refine List.pairwise_of_forall_mem_list fun a ha b _ d hd => ?_
      rw [hnone a ha] at hd
      exact nomatch hd
    · rw [hnone b hb] at hd
      exact nomatch hd
  · rcases List.mem_append.mp hk with hk | hk
    · exact hi.started k hk d hd
    · rw [hnone k hk] at hd
      exact nomatch hd

theorem download_mark (hit : RoutingProfile → Bool) (k : Worker) :
    download (k.mark hit) = download k := by
  unfold download
  cases hp : k.phase <;> simp [Worker.mark,Phase.mark,Copy.mark,hp]

theorem ready_mark {hit : RoutingProfile → Bool} {w : World} {o : Origins} {k : Worker}
    (h : Ready geoURLs w o k) : Ready geoURLs w o (k.mark hit) := by
  have hphase : ∀ {phase : Phase}, k.phase = phase → (k.mark hit).phase = phase.mark hit :=
    fun h => congrArg (Phase.mark hit) h
  refine ⟨fun c hc => ?_,fun hd => h.set ?_,fun e he => h.fetched e ?_,fun hs => h.backed ?_,
    fun now latest hl => ?_,fun hf => h.failed ?_⟩
  · rw [worker_copies_mark] at hc
    obtain ⟨d,hd,rfl⟩ := List.mem_map.mp hc
    exact h.formed d hd
  · cases hp : k.phase <;> rw [hphase hp] at hd <;> exact hd
  · cases hp : k.phase <;> rw [hphase hp] at he <;> exact he
  · cases hp : k.phase <;> rw [hphase hp] at hs <;> exact hs
  · cases hp : k.phase with
    | commit now' latest' =>
      rw [hphase hp] at hl
      obtain ⟨-,rfl⟩ := Phase.commit.inj hl
      exact h.latest now' latest' hp
    | _ => rw [hphase hp] at hl; exact nomatch hl
  · cases hp : k.phase <;> rw [hphase hp] at hf <;> first | rfl | exact nomatch hf

theorem jobFine_mark {job : Job} {hit : RoutingProfile → Bool} (h : JobFine geoURLs job) :
    JobFine geoURLs (job.mark hit) where
  links := h.links
  found c hc := by
    obtain ⟨d,hd,rfl⟩ := List.mem_map.mp hc
    exact h.found d hd

theorem jobFine_collect {job : Job} {p : RoutingProfile} (h : JobFine geoURLs job)
    (hp : Formed geoURLs p) : JobFine geoURLs (job.collect p) where
  links := by
    unfold Job.collect
    split <;> exact h.links
  found c hc := by
    rcases collect_found hc with hc | rfl
    · exact h.found c hc
    · exact hp

theorem jobFine_skip {job : Job} (h : JobFine geoURLs job) : JobFine geoURLs job.skip where
  links link hl := h.links link (List.mem_of_mem_tail hl)
  found := h.found

/-- An import stores a profile that has no files or is not ready. -/
theorem inv_imports (hi : Inv geoURLs t) {p : RoutingProfile} {command : Command}
    (hp : Formed geoURLs p) (hready : p.state = "ready" → p.geoDir = "")
    (hc : CommandFine geoURLs command) :
    Inv geoURLs ⟨{ (t.sys.imports p (saveRoutingProfile p t.sys.world).2) with
      command := command },t.origin,t.started⟩ := by
  have hwithin := within_quiet (touches_save (w := t.sys.world) p) t.origin
  refine ⟨(saves_saveRoutingProfile p hi.filed).filed,hwithin.housed hi.housed,
    fun g i q hq => ?_,hc,fun k hk => ?_,?_,fun k hk d hd => ?_⟩
  · rcases profileOn_save hi.filed hq with hold | ⟨rfl,-,-⟩
    · obtain ⟨hf,hb⟩ := hi.stored g i q hold
      exact ⟨hf,fun h => backed_within hwithin (hb h) fun _ _ h => h⟩
    · exact ⟨hp,fun h hne => absurd (hready h) hne⟩
  · obtain ⟨j,hj,rfl⟩ := List.mem_map.mp hk
    exact ready_mark (ready_within hwithin (hi.workers j hj) (fun _ _ h => h) fun _ _ _ h => h)
  · refine List.pairwise_map.mpr (hi.apart.imp fun {a b} h d ha hb => ?_)
    rw [download_mark] at ha hb
    exact h d ha hb
  · obtain ⟨j,hj,rfl⟩ := List.mem_map.mp hk
    rw [download_mark] at hd
    exact hi.started j hj d hd

/-- A failed save of an import changes no geo directory either. -/
theorem selects_failedSave {p : RoutingProfile} {w w' : World} {e : DBError} (hf : Filed w)
    (h : saveRoutingProfile p w = (.error e,w')) : Selects w w' := by
  have hs := saves_saveRoutingProfile p hf
  have ht := touches_save (w := w) p
  rw [h] at hs ht
  refine ⟨ht,hs.filed,fun g i => profileOn_congr hs.key (hs.other g i fun hok => ?_)⟩
  exact nomatch hok.1

theorem formed_new (gid : ℤ) {newID : String} {hp : HappProfile} (now : ℤ) (hid : Plain newID)
    {action : Action} (hl : Parsed geoURLs (.profile action hp)) :
    Formed geoURLs (newProfile gid newID hp now) :=
  ⟨hid,⟨(hp.geoipurl,hp.geositeurl),hl,fun _ => rfl⟩,fun h => absurd rfl h⟩

/-- An update without URLs gives up the files. -/
theorem formed_updated {existing : RoutingProfile} {hp : HappProfile} (now : ℤ)
    (he : Formed geoURLs existing) {action : Action} (hl : Parsed geoURLs (.profile action hp)) :
    Formed geoURLs (updatedProfile existing hp now) := by
  refine ⟨he.plain,⟨_,hl,fun hurls => ?_⟩,fun hne => ?_⟩
  · obtain ⟨h1,h2⟩ := Prod.mk.inj hurls
    exact if_pos (by simp [HappProfile.local?,h1,h2])
  · have hdir : (updatedProfile existing hp now).geoDir = existing.geoDir := by
      by_cases hlocal : hp.local? = true
      · exact absurd (if_pos hlocal) hne
      · exact if_neg hlocal
    rw [hdir] at hne ⊢
    exact he.dir hne

theorem updated_ready {existing : RoutingProfile} {hp : HappProfile} {now : ℤ}
    (h : (updatedProfile existing hp now).state = "ready") :
    (updatedProfile existing hp now).geoDir = "" := by
  by_cases hlocal : hp.local? = true
  · exact if_pos hlocal
  · rw [show (updatedProfile existing hp now).state = _ from if_neg hlocal] at h
    exact absurd h (by decide)

theorem inv_lookup (hi : Inv geoURLs t) {newID : String} {job : Job}
    (hj : JobFine geoURLs job) (hid : Plain newID) :
    Inv geoURLs ⟨lookupStep newID job t.sys,t.origin,t.started⟩ := by
  have hskip := jobFine_skip hj
  unfold lookupStep
  split
  · have hworker : ∀ k ∈ job.worker, (∀ c ∈ k.copies, Formed geoURLs c.profile) ∧
        (k.phase = .ensure ∨ k.phase = .announce) := by
      refine fun k hk => ⟨fun c hc => hj.found c (worker_found hk hc),.inl ?_⟩
      unfold Job.worker at hk
      split at hk
      · exact nomatch hk
      · rw [List.mem_singleton.mp hk]
    exact inv_selects (inv_hire hi hworker) ⟨touches_refl _,hi.filed,fun _ _ => rfl⟩ trivial
  · exact inv_selects hi ⟨touches_refl _,hi.filed,fun _ _ => rfl⟩ hskip
  · exact inv_selects hi (selects_setActive hi.filed "") hskip
  · rename_i action hp rest hlinks
    have hparsed : Parsed geoURLs (.profile action hp) :=
      hj.links _ (by rw [hlinks]; exact List.mem_cons_self) _ rfl
    have hs := selects_reads hi.filed (reads_find job.gid hp.name t.sys.world)
    split
    · rename_i existing w hfind
      rw [hfind] at hs
      obtain ⟨id,hstored⟩ := find_stored hfind
      have hexisting := (hi.stored _ _ _ hstored).1
      split
      · exact inv_selects hi hs (jobFine_collect hskip hexisting)
      · exact inv_selects hi hs
          ⟨hskip,formed_updated job.now hexisting hparsed,updated_ready⟩
    · rename_i e w hfind
      rw [hfind] at hs
      split
      · exact inv_selects hi hs
          ⟨hskip,formed_new job.gid job.now hid hparsed,fun _ => rfl⟩
      · exact hi

theorem inv_activate (hi : Inv geoURLs t) (gid : ℤ) (id : String) :
    Inv geoURLs ⟨activateStep geoURLs gid id t.sys,t.origin,t.started⟩ := by
  have hs := selects_reads hi.filed
    (readsAs_readEncryptedJSON (.routingProfile gid id) Payload.asRoutingProfile t.sys.world).1
  change Selects t.sys.world (loadRoutingProfile gid id t.sys.world).2 at hs
  unfold activateStep
  split
  · rename_i e w hload
    rw [hload] at hs
    exact inv_selects hi hs trivial
  · rename_i p w hload
    rw [hload] at hs
    obtain ⟨rfl,hp⟩ := load_ok hload
    dsimp only
    split
    · let k₀ : Worker :=
        { gid := gid, copy := ⟨p,false⟩, rest := [], phase := .announce, selects := false }
      have hnew : ∀ k ∈ [k₀], (∀ c ∈ k.copies, Formed geoURLs c.profile) ∧
          (k.phase = .ensure ∨ k.phase = .announce) := by
        intro k hk
        obtain rfl := List.mem_singleton.mp hk
        refine ⟨fun c hc => ?_,.inr rfl⟩
        obtain rfl : c = ⟨p,false⟩ := by simpa [k₀,Worker.copies,Phase.copies] using hc
        exact (hi.stored _ _ _ hp).1
      exact inv_selects (inv_hire hi hnew) hs trivial
    · exact inv_selects hi hs trivial

theorem inv_command (hi : Inv geoURLs t) {newID : String} (hid : Plain newID) :
    Inv geoURLs ⟨commandStep geoURLs newID t.sys,t.origin,t.started⟩ := by
  have hcommand := hi.command
  unfold commandStep
  cases hc : t.sys.command with
  | idle => exact hi
  | lookup job =>
    rw [hc] at hcommand
    exact inv_lookup hi hcommand hid
  | save job p action isNew =>
    rw [hc] at hcommand
    obtain ⟨hjob,hp,hready⟩ := hcommand
    have hnew := @inv_imports geoURLs t hi p
      (.select ((job.mark (sameName p)).collect p) p action isNew) hp hready
      (jobFine_collect (jobFine_mark hjob) hp)
    dsimp only
    rcases hr : saveRoutingProfile p t.sys.world with ⟨e | u,w⟩ <;> rw [hr] at hnew
    · exact inv_selects hi (selects_failedSave hi.filed hr) hjob
    · exact hnew
  | select job p action isNew =>
    rw [hc] at hcommand
    exact inv_selects hi (selects_selectImported hi.filed action isNew p) hcommand
  | activate gid id => exact inv_activate hi gid id
  | delete gid id =>
    rw [hc] at hcommand
    exact hcommand.elim

theorem inv_step (hi : Inv geoURLs t) (e : Event) (hc : Careful geoURLs t e) :
    Inv geoURLs (t.step geoURLs e) := by
  cases e with
  | upsert gid links now =>
    unfold Traced.step Event.step
    dsimp only
    split
    · exact inv_selects hi ⟨touches_refl _,hi.filed,fun _ _ => rfl⟩ ⟨hc,fun _ h => nomatch h⟩
    · exact hi
  | setActive gid id =>
    unfold Traced.step Event.step
    dsimp only
    split
    · refine inv_selects hi (selects_activated hi.filed id) ?_
      split <;> trivial
    · exact hi
  | delete gid id => exact hc.elim
  | command newID => exact inv_command hi hc
  | deleteGroup gid => exact hc.elim
  | worker n i => exact inv_worker hi n i hc

theorem inv_run (es : List Event) (hi : Inv geoURLs t) (hc : CarefulRun geoURLs t es) :
    Inv geoURLs (t.run geoURLs es) := by
  induction es generalizing t with
  | nil => exact hi
  | cons e es ih => exact ih (inv_step hi e hc.1) hc.2

theorem inv_begin {subscriptionHost : String → String} {w : World}
    (hw : Unrouted subscriptionHost w) : Inv geoURLs (begin w) where
  filed := filed_built hw.built
  housed g i v f h := by
    rw [begin,GeoWorkers.start,hw.geo (.routingGeo g i v f) trivial] at h
    cases h
  stored g i p hp := by
    rw [begin,GeoWorkers.start,profileOn_none (hw.profiles g i)] at hp
    cases hp
  command := trivial
  workers k hk := by cases hk
  apart := List.Pairwise.nil
  started k hk := by cases hk

end Invariant

section Runs

variable (geoURLs : RawMessage → Option (String × String))

/-- Enough for a careful step: the gate is closed and no version is old. -/
def plainStep (t : Traced) : Event → Bool
  | .upsert _ links _ => links.all fun link => link.all fun l => decide (Parsed geoURLs l)
  | .setActive _ _ => true
  | .delete _ _ => false
  | .deleteGroup _ => false
  | .command newID => decide (Plain newID)
  | .worker n i => (t.sys.workers[n]?).all fun k =>
    let p := k.copy.profile
    match k.phase with
    | .ensure => !gated i.now p t.sys.world
    | .prepare now => decide ((p.groupId,p.id,now) ∉ t.started)
    | .commit _ latest => [Asset.geoip,Asset.geosite].all fun asset =>
        wanted geoURLs latest.profile asset = wanted geoURLs p asset
    | .prune now => (outdated p.groupId p.id (toString now) t.sys.world).isEmpty
    | _ => true

def plainRun (t : Traced) : List Event → Bool
  | [] => true
  | e::es => plainStep geoURLs t e && plainRun (t.step geoURLs e) es

theorem careful_of_plainStep {t : Traced} {e : Event} (h : plainStep geoURLs t e = true) :
    Careful geoURLs t e := by
  cases e with
  | upsert gid links now =>
    intro link hl l he
    have hlink := List.all_eq_true.mp h link hl
    rw [he] at hlink
    exact of_decide_eq_true hlink
  | setActive gid id => trivial
  | delete gid id => exact nomatch h
  | command newID => exact (of_decide_eq_true h : Plain newID)
  | deleteGroup gid => exact nomatch h
  | worker n i =>
    intro k hk
    simp only [plainStep,hk,Option.all_some] at h
    unfold CarefulStep
    cases hp : k.phase with
    | ensure =>
      simp only [hp] at h ⊢
      intro hg
      rw [hg] at h
      exact nomatch h
    | prepare now =>
      simp only [hp] at h ⊢
      exact of_decide_eq_true h
    | commit now latest =>
      simp only [hp] at h ⊢
      intro asset
      exact of_decide_eq_true (List.all_eq_true.mp h asset (by cases asset <;> simp))
    | prune now =>
      simp only [hp] at h ⊢
      intro n hn
      rw [List.isEmpty_iff.mp h] at hn
      exact nomatch hn
    | _ => trivial

theorem careful_of_plainRun {es : List Event} {t : Traced} (h : plainRun geoURLs t es = true) :
    CarefulRun geoURLs t es := by
  induction es generalizing t with
  | nil => trivial
  | cons e es ih =>
    obtain ⟨he,hes⟩ := Bool.and_eq_true_iff.mp h
    exact ⟨careful_of_plainStep geoURLs he,ih hes⟩

/-- Two texts of one profile, with different geo files. -/
def textOf (host : String) : RawMessage :=
  "\x7b\"Name\":\"ru\",\"Geoipurl\":\"https://" ++ host ++ "/geoip.dat\"\x7d"

def hostURL (host : String) : String := "https://" ++ host ++ "/geoip.dat"

def hostURLs (raw : RawMessage) : Option (String × String) :=
  if raw = textOf "a" then some (hostURL "a","")
  else if raw = textOf "b" then some (hostURL "b","")
  else none

def hostLink (host : String) : Option ParsedLink :=
  some (.profile .add ⟨"ru",none,hostURL host,"",0,textOf host,
    ⟨"IPIfNonMatch",lanSelection.config.rules,none⟩⟩)

/-- A new installation with one group. -/
def groupDirectory : World :=
  ReadOnly.Op.run id (.addGroup "work" "") GeoWorkers.configuredDirectory

theorem unrouted_groupDirectory : Unrouted id groupDirectory := by
  have hkeys : ∀ path ∈ groupDirectory.disk.keys,
      path ∈ [Path.dbConfig,.groupConfig 1,.groupDir 1] := by decide
  have hnone : ∀ path, path ∉ [Path.dbConfig,.groupConfig 1,.groupDir 1] →
      groupDirectory.disk.lookup path = none := fun path hp =>
    AList.lookup_eq_none.mpr fun hm => hp (hkeys path hm)
  refine ⟨.op _ (.fresh (by decide)),fun g i => hnone _ (by simp),fun path hp => hnone _ ?_⟩
  cases path <;> first | exact hp.elim | simp

def served (now : ℤ) : Input := ⟨now,[1],false,""⟩

/-- An import of a link, up to the worker it starts. -/
def importOf (host : String) : List Event :=
  [.upsert 1 [hostLink host] 100,.command "k3",.command "k3",.command "k3",.command "k3"]

/-- A download from the gate to the save of the profile. -/
def downloadAt (now : ℤ) : List Event := List.replicate 7 (.worker 0 (served now))

/-- The provider changes the URL; the weekly gate takes the old files for it. -/
def gateRun : List Event :=
  importOf "a" ++ downloadAt 100 ++ List.replicate 2 (.worker 0 (served 101)) ++ importOf "b" ++
    List.replicate 2 (.worker 0 (served 200))

end Runs

end Whoisthat.GeoTraces
