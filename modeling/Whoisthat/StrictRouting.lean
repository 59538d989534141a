import Whoisthat.CoreConfig

/-!
# Manual rules in strict subscription mode

A group in the strict mode takes its routing from the subscription or from
nobody. The resolver is run over a directory whose reads may fail; two
directories with other manual rules give one configuration unless the group
config cannot be read and the rules of the fallback can.
-/

set_option autoImplicit false

namespace Whoisthat.StrictRouting
open Whoisthat.FileStore Whoisthat.FallibleState Whoisthat.Records Whoisthat.Database
open Whoisthat.GroupFiles Whoisthat.RoutingStore Whoisthat.RoutingResolution Whoisthat.Json
open Whoisthat.XrayConfig (Env injectStatsConfig injectRoutingConfig injectDNS routingSection
  parseUriWithTun domainStrategy fakeDNSActive)
open Whoisthat.CoreConfig

section Program

/-- How the coming reads end, `none` for a read that is carried out; reads past
the end of the list are carried out. -/
abbrev Failures := List (Option DBError)

abbrev FlakyM (α : Type) := Prog (World × Failures) DBError α

def flaky : Files (World × Failures) where
  path := fun s => (.ok s.1.root,s)
  read := fun path target s =>
    match s.2.headD none with
    | some e => (.error e,(s.1,s.2.tail))
    | none =>
      let r := readEncryptedJSON path target s.1
      (r.1,(r.2,s.2.tail))
  stat := fun target s => (.ok (existsAt target s.1),s)

variable (parseRawJSON : RawMessage → Option HappDNSConfig)

def resolved (gid : ℤ) (w : World) (failures : Failures) : Except DBError RoutingSelection :=
  (flaky.resolveRouting parseRawJSON gid (w,failures)).1

/-- An error leaves a connect with no rules, under the name of manual ones. -/
def connectBaseline : Except DBError RoutingSelection → Baseline
  | .ok selection => .shareLink (some selection)
  | .error _ => .shareLink (some { noSelection with source := "manual" })

def reloadBaseline : Except DBError RoutingSelection → Baseline
  | .ok selection => .shareLink (some selection)
  | .error _ => .shareLink (some noSelection)

variable (host : Host) (s : Start)

def connectConfig (gid : ℤ) (w : World) (failures : Failures) : Option Fields :=
  startedConfig host s (connectBaseline (resolved parseRawJSON gid w failures))

def reloadConfig (gid : ℤ) (w : World) (failures : Failures) : Option Fields :=
  startedConfig host s (reloadBaseline (resolved parseRawJSON gid w failures))

end Program

section Meaning

def isManual : Path → Bool
  | .routing => true
  | .groupRouting _ => true
  | _ => false

/-- The directories differ at most in the global rules and in the overrides of
groups. -/
structure DifferManual (w u : World) : Prop where
  root : u.root = w.root
  key : u.key = w.key
  files : ∀ path, isManual path = false → u.disk.lookup path = w.disk.lookup path

/-- No other manual rules change what a connect or a reload starts. -/
def Isolated (parseRawJSON : RawMessage → Option HappDNSConfig) (host : Host) (s : Start) (gid : ℤ)
    (w : World) (failures : Failures) : Prop :=
  ∀ u, DifferManual w u →
    connectConfig parseRawJSON host s gid u failures =
      connectConfig parseRawJSON host s gid w failures ∧
    reloadConfig parseRawJSON host s gid u failures =
      reloadConfig parseRawJSON host s gid w failures

def fails (failures : Failures) (n : ℕ) : Bool := (failures.getD n none).isSome

/-- The group config is not read, and the global rules are. -/
def FallsBack (gid : ℤ) (failures : Failures) : Prop :=
  if gid = 0 then fails failures 0 = false
  else fails failures 0 = true ∧ fails failures 1 = false

instance (gid : ℤ) (failures : Failures) : Decidable (FallsBack gid failures) := by
  unfold FallsBack
  infer_instance

end Meaning

section Reads

theorem differManual_symm {w u : World} (h : DifferManual w u) : DifferManual u w :=
  ⟨h.root.symm,h.key.symm,fun path hp => (h.files path hp).symm⟩

theorem components_manual {path : Path} (h : isManual path = true) :
    path.components.getLast? = some "routing.json" ∨
      path.components.getLast? = some "manual.json" := by
  cases path with
  | routing => exact .inl rfl
  | groupRouting gid => exact .inr rfl
  | _ => exact nomatch h

theorem exists_differ {w u : World} (h : DifferManual w u) {dir : List String} {file : String}
    (hfile : file ≠ "routing.json" ∧ file ≠ "manual.json")
    (he : existsAt (dir ++ [file]) w = true) : existsAt (dir ++ [file]) u = true := by
  unfold existsAt at he ⊢
  rw [List.any_eq_true] at he ⊢
  obtain ⟨path,hmem,htarget⟩ := he
  refine ⟨path,?_,by simpa [h.root] using htarget⟩
  have hplain : isManual path = false := by
    cases hm : isManual path with
    | false => rfl
    | true =>
      have htarget : w.root ++ path.components = dir ++ [file] := by simpa using htarget
      have hlast := congrArg List.getLast? htarget
      rw [List.getLast?_concat] at hlast
      rcases components_manual hm with hc | hc
      all_goals
        rw [List.getLast?_append,hc] at hlast
        have hsame := Option.some.inj hlast
      · exact absurd hsame.symm hfile.1
      · exact absurd hsame.symm hfile.2
  rw [← AList.mem_keys,← AList.lookup_isSome] at hmem ⊢
  rwa [h.files path hplain]

theorem existsAt_differ {w u : World} (h : DifferManual w u) (dir : List String) {file : String}
    (hfile : file ≠ "routing.json" ∧ file ≠ "manual.json") :
    existsAt (dir ++ [file]) w = existsAt (dir ++ [file]) u :=
  Bool.eq_iff_iff.mpr ⟨exists_differ h hfile,exists_differ (differManual_symm h) hfile⟩

theorem differManual_trans {w u v : World} (h : DifferManual w u) (h' : DifferManual u v) :
    DifferManual w v :=
  ⟨h'.root.trans h.root,h'.key.trans h.key,fun path hp => (h'.files path hp).trans (h.files path hp)⟩

theorem stored_differ {α : Type} {w u : World} (h : DifferManual w u) {path : Path}
    (hp : isManual path = false) (target : Payload → Option α) :
    stored path target u = stored path target w := by
  rw [stored,stored,fileAt,fileAt,readFile,readFile,h.files path hp,h.key]

def Alike (s t : World × Failures) : Prop := DifferManual s.1 t.1 ∧ s.2 = t.2

theorem agrees_path : Agrees Alike flaky.path := fun _ _ h => ⟨congrArg Except.ok h.1.root.symm,h⟩

theorem read_differ {α : Type} {w u : World} (h : DifferManual w u) {path : Path}
    (hp : isManual path = false) (target : Payload → Option α) :
    (readEncryptedJSON path target w).1 = (readEncryptedJSON path target u).1 ∧
      DifferManual (readEncryptedJSON path target w).2 (readEncryptedJSON path target u).2 := by
  have hfile : readFile path u.disk = readFile path w.disk := by
    rw [readFile,readFile,h.files path hp]
  unfold readEncryptedJSON
  rw [hfile,h.key]
  cases readFile path w.disk with
  | none => exact ⟨rfl,h⟩
  | some b =>
    dsimp only
    cases openBlob w.key b with
    | some p =>
      dsimp only
      cases target p <;> exact ⟨rfl,h⟩
    | none =>
      dsimp only
      split
      · exact ⟨rfl,h.root,h.key,h.files⟩
      · exact ⟨rfl,h⟩

theorem agrees_read {α : Type} {path : Path} (hp : isManual path = false)
    (target : Payload → Option α) : Agrees Alike (flaky.read path target) := by
  rintro ⟨w,failures⟩ ⟨u,_⟩ ⟨h,rfl⟩
  obtain ⟨hout,hstate⟩ := read_differ h hp target
  unfold flaky
  dsimp only
  cases failures.headD none with
  | some e => exact ⟨rfl,h,rfl⟩
  | none => exact ⟨hout,hstate,rfl⟩

theorem agrees_geoAssets (p : RoutingProfile) : Agrees Alike (flaky.geoAssets p) := by
  have hstat (dir : List String) {file : String}
      (hfile : file ≠ "routing.json" ∧ file ≠ "manual.json") :
      Agrees Alike (flaky.stat (dir ++ [file])) := fun s t h =>
    ⟨congrArg Except.ok (existsAt_differ h.1 dir hfile),h⟩
  unfold Files.geoAssets
  split
  · exact agrees_pure _
  · refine agrees_bind agrees_path fun root => ?_
    refine agrees_bind (hstat _ (by decide)) fun _ => ?_
    exact agrees_bind (hstat _ (by decide)) fun _ => agrees_pure _

theorem agrees_activeSelection (parseRawJSON : RawMessage → Option HappDNSConfig) (gid : ℤ)
    (id : String) : Agrees Alike (flaky.activeSelection parseRawJSON gid id) := by
  unfold Files.activeSelection
  split
  · exact agrees_pure _
  · refine agrees_bind (agrees_attempt (agrees_read rfl _)) fun read => ?_
    cases read with
    | error e => exact agrees_pure _
    | ok p =>
      dsimp only
      split
      · exact agrees_bind (agrees_geoAssets p) fun _ => agrees_pure _
      · exact agrees_pure _

end Reads

section Resolution

variable (parseRawJSON : RawMessage → Option HappDNSConfig) {gid : ℤ} {w u : World}
  {failures : Failures}

theorem fails_tail (failures : Failures) : fails failures.tail 0 = fails failures 1 := by
  cases failures <;> rfl

theorem head_of_fails (h : fails failures 0 = true) : ∃ e, failures.headD none = some e := by
  cases failures with
  | nil => exact nomatch h
  | cons o rest => exact Option.isSome_iff_exists.mp h

theorem head_of_carried (h : fails failures 0 = false) : failures.headD none = none := by
  cases failures with
  | nil => rfl
  | cons o rest =>
    cases o with
    | none => rfl
    | some e => exact nomatch h

theorem read_fails {α : Type} {e : DBError} (h : failures.headD none = some e) (path : Path)
    (target : Payload → Option α) (w : World) :
    flaky.read path target (w,failures) = (.error e,(w,failures.tail)) := by
  unfold flaky
  dsimp only
  rw [h]

theorem read_carried {α : Type} (h : failures.headD none = none) (path : Path)
    (target : Payload → Option α) (w : World) :
    flaky.read path target (w,failures) =
      ((readEncryptedJSON path target w).1,((readEncryptedJSON path target w).2,failures.tail)) := by
  unfold flaky
  dsimp only
  rw [h]

/-- What a read that is carried out gives, for a file that can be read. -/
theorem read_stored {α : Type} (h : failures.headD none = none) {path : Path}
    {target : Payload → Option α} {a : α} (ha : stored path target w = some a) :
    ∃ v, DifferManual w v ∧ flaky.read path target (w,failures) = (.ok a,(v,failures.tail)) := by
  have hread := @stored_eq_read α w path target w (sameFiles_refl w)
  rw [ha] at hread
  have hsame := @sameFiles_read α w path target w (sameFiles_refl w)
  refine ⟨(readEncryptedJSON path target w).2,
    ⟨hsame.root,hsame.key,fun _ _ => by rw [hsame.disk]⟩,?_⟩
  rw [read_carried h]
  cases hr : (readEncryptedJSON path target w).1 with
  | error e =>
    rw [hr] at hread
    exact nomatch hread
  | ok b =>
    rw [hr] at hread
    rw [Option.some.inj hread]

theorem readRouting_fails {path : Path} (h : fails failures 0 = true) (w : World) :
    (flaky.readRouting path (w,failures)).1 = .ok defaultRouting := by
  obtain ⟨e,he⟩ := head_of_fails h
  unfold Files.readRouting
  rw [bind_of_ok (attempt_run _ _),read_fails he]
  rfl

theorem readRouting_stored {path : Path} {cfg : RoutingConfig} (h : fails failures 0 = false)
    (hc : stored path Payload.asRouting w = some cfg) :
    (flaky.readRouting path (w,failures)).1 = .ok cfg := by
  obtain ⟨v,-,hv⟩ := read_stored (head_of_carried h) hc
  unfold Files.readRouting
  rw [bind_of_ok (attempt_run _ _),hv]
  rfl

theorem loadGroupConfig_fails (gid : ℤ) (h : fails failures 0 = true) (w : World) :
    ∃ e, flaky.loadGroupConfig gid (w,failures) = (.error e,(w,failures.tail)) := by
  obtain ⟨e,he⟩ := head_of_fails h
  refine ⟨.loadGroup gid e,?_⟩
  unfold Files.loadGroupConfig
  rw [bind_of_ok (attempt_run _ _),read_fails he]
  rfl

theorem loadGroupConfig_stored {group : Group} (h : fails failures 0 = false)
    (hg : stored (.groupConfig gid) Payload.asGroup w = some group) :
    ∃ v, DifferManual w v ∧
      flaky.loadGroupConfig gid (w,failures) = (.ok group,(v,failures.tail)) := by
  obtain ⟨v,hsame,hv⟩ := read_stored (head_of_carried h) hg
  refine ⟨v,hsame,?_⟩
  unfold Files.loadGroupConfig
  rw [bind_of_ok (attempt_run _ _),hv]
  rfl

/-- The global rules of the fallback, when the group is 0 or is not read. -/
theorem resolved_global (h : FallsBack gid failures) {cfg : RoutingConfig}
    (hc : stored .routing Payload.asRouting w = some cfg) :
    resolved parseRawJSON gid w failures = .ok (manualSelection cfg) := by
  have hload {failures : Failures} (hf : fails failures 0 = false) :
      ((flaky.loadRouting >>= fun cfg => pure (manualSelection cfg) : FlakyM RoutingSelection)
        (w,failures)).1 = .ok (manualSelection cfg) := by
    have hread : (flaky.loadRouting (w,failures)).1 = .ok cfg := readRouting_stored hf hc
    rw [bind_of_ok (run_of_fst hread)]
    rfl
  unfold FallsBack at h
  unfold resolved Files.resolveRouting
  split_ifs at h ⊢ with hgid
  · exact hload h
  · obtain ⟨e,he⟩ := loadGroupConfig_fails gid h.1 w
    rw [bind_of_ok (attempt_run _ _),he]
    exact hload ((fails_tail failures).trans h.2)

theorem loadRouting_default (h : fails failures 0 = true) (w : World) :
    ((flaky.loadRouting >>= fun cfg => pure (manualSelection cfg) : FlakyM RoutingSelection)
      (w,failures)).1 = .ok (manualSelection defaultRouting) := by
  have hread : (flaky.loadRouting (w,failures)).1 = .ok defaultRouting := readRouting_fails h w
  rw [bind_of_ok (run_of_fst hread)]
  rfl

/-- Every other run stays on the side of the subscription. -/
theorem resolved_same {group : Group} (h : DifferManual w u)
    (hg : stored (.groupConfig gid) Payload.asGroup w = some group)
    (hmode : group.routingMode = "subscription") (hf : ¬FallsBack gid failures) :
    resolved parseRawJSON gid u failures = resolved parseRawJSON gid w failures := by
  unfold FallsBack at hf
  unfold resolved Files.resolveRouting
  split_ifs at hf ⊢ with hgid
  · rw [Bool.not_eq_false] at hf
    rw [loadRouting_default hf,loadRouting_default hf]
  · cases h0 : fails failures 0 with
    | true =>
      have h1 : fails failures.tail 0 = true := by
        rw [fails_tail]
        exact Bool.not_eq_false _ ▸ fun hc => hf ⟨h0,hc⟩
      obtain ⟨e,he⟩ := loadGroupConfig_fails gid h0 w
      obtain ⟨e',he'⟩ := loadGroupConfig_fails gid h0 u
      rw [bind_of_ok (attempt_run _ _),bind_of_ok (attempt_run _ _),he,he']
      exact (loadRouting_default h1 u).trans (loadRouting_default h1 w).symm
    | false =>
      obtain ⟨v,hv,hload⟩ := loadGroupConfig_stored h0 hg
      obtain ⟨v',hv',hload'⟩ := loadGroupConfig_stored h0 ((stored_differ h rfl _).trans hg)
      have hstates : Alike (v',failures.tail) (v,failures.tail) :=
        ⟨differManual_trans (differManual_symm hv')
          (differManual_trans (differManual_symm h) hv),rfl⟩
      rw [bind_of_ok (attempt_run _ _),bind_of_ok (attempt_run _ _),hload,hload']
      have hmode' : (if group.routingMode = "" then "auto" else group.routingMode) =
          "subscription" := by rw [hmode]; decide
      dsimp only
      rw [hmode']
      refine (agrees_bind (agrees_activeSelection parseRawJSON gid _) (fun found => ?_) _ _
        hstates).1
      cases found <;> exact agrees_pure _

end Resolution

section Configs

variable {host : Host} {s : Start} {gid : ℤ} {w u : World} {failures : Failures}

theorem index_routing_inject (env : Env) (config : Fields) (selection : RoutingSelection)
    (tunActive : Bool) : ∃ hasAPI,
    Fields.index (injectRoutingConfig env config selection tunActive) "routing" =
      routingSection env selection tunActive hasAPI := by
  refine ⟨config.has "api",?_⟩
  unfold injectRoutingConfig
  dsimp only
  split <;> split <;> simp only [index_put_of_ne (by decide : "routing" ≠ "outbounds"),
    index_put_of_ne (by decide : "routing" ≠ "inbounds"),index_put_self]

/-- The domain strategy of the manual rules is written into the configuration. -/
theorem shareLink_strategy {uri : String} {outbound : Fields}
    (ho : host.createOutboundObject uri = some outbound) (tunName : String) (apiPort : ℤ)
    (tunActive : Bool) (cfg : RoutingConfig) (hdns : cfg.dns = none)
    (hosts : List (String × List String)) :
    ∃ config, shareLinkConfig host uri tunName apiPort
        (some { manualSelection cfg with bootstrapHosts := hosts }) tunActive = some config ∧
      (Fields.index (Fields.index config "routing").asMap "domainStrategy").asString =
        if cfg.domainStrategy = "" then "IPIfNonMatch" else cfg.domainStrategy := by
  unfold shareLinkConfig parseUriWithTun
  rw [ho]
  refine ⟨_,rfl,?_⟩
  dsimp only
  obtain ⟨hasAPI,hrouting⟩ := index_routing_inject host.env (injectStatsConfig
    [("outbounds",.arr [.obj outbound]),("inbounds",.arr
      ((XrayConfig.generateInboundConfigWithTun host.socksPort host.httpPort tunName).map .obj))]
    apiPort) { manualSelection cfg with bootstrapHosts := hosts } tunActive
  have hfake : fakeDNSActive host.env { manualSelection cfg with bootstrapHosts := hosts }
      tunActive = false := by
    simp [fakeDNSActive,manualSelection,hdns]
  rw [hrouting,routingSection,hfake]
  simp [Value.asMap,Fields.index,domainStrategy,manualSelection,Value.asString]
  rfl

theorem started_none (h : host.createOutboundObject s.uri = none)
    (selection : Option RoutingSelection) : startedConfig host s (.shareLink selection) = none := by
  unfold startedConfig shareLinkConfig parseUriWithTun
  rw [h]
  rfl

theorem store_differ (w : World) (cfg : RoutingConfig) :
    DifferManual w (store .routing (.routing cfg) w) := by
  refine ⟨rfl,rfl,fun path hp => ?_⟩
  have hne : path ≠ .routing := by
    rintro rfl
    exact nomatch hp
  rw [store,lookup_insert,if_neg hne]
  rfl

theorem stored_store (w : World) (cfg : RoutingConfig) :
    stored .routing Payload.asRouting (store .routing (.routing cfg) w) = some cfg := by
  simp [stored,fileAt,store,readFile_insert,openBlob,Payload.asRouting]

variable (parseRawJSON : RawMessage → Option HappDNSConfig)

/-- Two global rule files the fallback tells apart. -/
theorem fallback_depends {outbound : Fields} (ho : host.createOutboundObject s.uri = some outbound)
    (hf : FallsBack gid failures) : ¬Isolated parseRawJSON host s gid w failures := by
  intro h
  have hconfig (strategy : String) (hne : strategy ≠ "") : ∃ config,
      connectConfig parseRawJSON host s gid (store .routing (.routing ⟨strategy,[],none⟩) w)
        failures = some config ∧
      (Fields.index (Fields.index config "routing").asMap "domainStrategy").asString =
        strategy := by
    obtain ⟨config,hc,hs⟩ := shareLink_strategy ho s.tunArg s.apiPort s.tunEnabled
      ⟨strategy,[],none⟩ rfl s.hosts
    refine ⟨config,?_,hs.trans (if_neg hne)⟩
    rw [connectConfig,resolved_global parseRawJSON hf (stored_store w _)]
    exact hc
  obtain ⟨asIs,hasIs,hs⟩ := hconfig "AsIs" (by decide)
  obtain ⟨onDemand,honDemand,hd⟩ := hconfig "IPOnDemand" (by decide)
  have hsame := (h _ (store_differ w ⟨"AsIs",[],none⟩)).1.trans
    (h _ (store_differ w ⟨"IPOnDemand",[],none⟩)).1.symm
  rw [hasIs,honDemand,Option.some.injEq] at hsame
  rw [hsame,hd] at hs
  exact absurd hs (by decide)

theorem isolated_iff_not_fallback {group : Group}
    (hg : stored (.groupConfig gid) Payload.asGroup w = some group)
    (hmode : group.routingMode = "subscription") :
    Isolated parseRawJSON host s gid w failures ↔
      host.createOutboundObject s.uri = none ∨ ¬FallsBack gid failures := by
  constructor
  · intro h
    cases ho : host.createOutboundObject s.uri with
    | none => exact .inl rfl
    | some outbound => exact .inr fun hf => fallback_depends parseRawJSON ho hf h
  · rintro (ho | hf) u hu
    · have hnone (out : Except DBError RoutingSelection) :
          startedConfig host s (connectBaseline out) = none ∧
            startedConfig host s (reloadBaseline out) = none := by
        cases out <;> exact ⟨started_none ho _,started_none ho _⟩
      exact ⟨(hnone _).1.trans (hnone _).1.symm,(hnone _).2.trans (hnone _).2.symm⟩
    · have hsame := resolved_same parseRawJSON hu hg hmode hf
      rw [connectConfig,connectConfig,reloadConfig,reloadConfig,hsame]
      exact ⟨rfl,rfl⟩

/-- In the strict mode manual rules have no influence, whatever reads fail,
except for a share link that is started while the group config cannot be read
and the global rules can. -/
theorem isolated_iff (parseRawJSON : RawMessage → Option HappDNSConfig) (host : Host) (s : Start)
    (gid : ℤ) (w : World) (failures : Failures) (group : Group)
    (hg : stored (.groupConfig gid) Payload.asGroup w = some group)
    (hmode : group.routingMode = "subscription") :
    Isolated parseRawJSON host s gid w failures ↔
      host.createOutboundObject s.uri = none ∨ ¬FallsBack gid failures :=
  isolated_iff_not_fallback parseRawJSON hg hmode

end Configs

section Samples

def socksOutbound : Fields :=
  [("protocol",.str "socks"),("tag",.str "proxy"),
    ("settings",.obj [("servers",.arr [.obj [("address",.str "example.com"),("port",.int 1080),
      ("level",.int 0)]])]),
    ("streamSettings",.obj [("network",.str "tcp"),
      ("tcpSettings",.obj [("header",.obj [("type",.str "none")])])])]

/-- A host that is asked about one link. -/
def linkHost : Host :=
  { sampleHost with
    createOutboundObject := fun uri =>
      if uri = "socks://example.com:1080" then some socksOutbound else none }

def linkStart : Start := { startWith false with uri := "socks://example.com:1080" }

theorem strictGroup_stored :
    stored (.groupConfig 1) Payload.asGroup strictDirectory = some strictGroup := by decide

theorem strict_group_isolated :
    Isolated (fun _ => none) linkHost linkStart 1 strictDirectory [] :=
  (isolated_iff _ _ _ 1 strictDirectory [] strictGroup strictGroup_stored rfl).mpr
    (.inr (by decide))

/-- The group config is unreadable once, and the global rules decide. -/
theorem strict_group_falls_back :
    ¬Isolated (fun _ => none) linkHost linkStart 1 strictDirectory
      [some (.decrypt (.groupConfig 1))] := by
  intro h
  rcases (isolated_iff_not_fallback _ strictGroup_stored rfl).mp h with ho | hf
  · exact nomatch (ho : some socksOutbound = none)
  · exact hf (by decide)

end Samples

end Whoisthat.StrictRouting
