import Whoisthat.ConfigShape

/-!
# The started and the tested configuration

A connect and a reload build the configuration of the core from the provider's
document or from the share link. `xray run -test` gets a second rendering
without the TUN inbound. The two agree on everything else, except that the
managed pipeline also loses the capture of DNS queries with the inbound.
-/

set_option autoImplicit false

namespace Whoisthat.CoreConfig
open Whoisthat.Records Whoisthat.RoutingResolution Whoisthat.Json
open Whoisthat.ProviderConfig (Options Prepared prepare prepareFields prepare_ok isProxyOutbound)
open Whoisthat.XrayConfig (Env isStr parseUriWithTun generateInboundConfig
  generateInboundConfigWithTun generateTunInbound injectStatsConfig injectRoutingConfig injectDNS
  happDNS fakeDNSActive sniffInbound apiInbound routingSection)
open Whoisthat.RuleEnforcement Whoisthat.ConfigShape

section Program

/-- The settings and what libraries answer. -/
structure Host where
  socksPort : ℤ
  httpPort : ℤ
  env : Env
  createOutboundObject : String → Option Fields
  /-- The syntax of a JSON text, `none` for any other text. -/
  parseText : RawMessage → Option Value
  parseText_empty : parseText "" = none
  /-- `geo.EnsureGlobalCopies` -/
  globalCopies : Option (List String) → Bool

/-- One start of the core for a profile. -/
structure Start where
  uri : String
  tunName : String
  tunEnabled : Bool
  apiPort : ℤ
  hosts : List (String × List String)

def Start.tunArg (s : Start) : String := if s.tunEnabled then s.tunName else ""

/-- What the database gives: for a managed profile its document with the manual
rules and the geo files of its group, else the resolved routing. Without a
database there is none. -/
inductive Baseline where
  | managed (document : RawMessage) (manual : RoutingConfig) (geoDir : Option (List String))
  | shareLink (selection : Option RoutingSelection)

variable (host : Host)

def optionsOf (tunName : String) (apiPort : ℤ) (selection : RoutingSelection) : Options :=
  { socksPort := host.socksPort
    httpPort := host.httpPort
    tunName := tunName
    apiPort := apiPort
    dnsServers := host.env.dnsServers
    bootstrapHosts := selection.bootstrapHosts
    userRules := selection.config.rules
    userDomainStrategy := selection.config.domainStrategy
    globalGeoExt := host.globalCopies selection.geoDir }

/-- Prepare and the statistics section on a stored document. -/
def prepareManagedConfig (document : RawMessage) (opts : Options) : Option Fields :=
  (host.parseText document).bind fun raw =>
    match prepare raw opts with
    | .ok prepared => some (injectStatsConfig prepared.config opts.apiPort)
    | .error _ => none

def shareLinkConfig (uri tunName : String) (apiPort : ℤ) (selection : Option RoutingSelection)
    (tunActive : Bool) : Option Fields :=
  (parseUriWithTun host.createOutboundObject uri host.socksPort host.httpPort tunName).map
    fun config =>
      let config := injectStatsConfig config apiPort
      match selection with
      | some selection => injectRoutingConfig host.env config selection tunActive
      | none => config

def managedSelection (manual : RoutingConfig) (geoDir : Option (List String))
    (hosts : List (String × List String)) : RoutingSelection :=
  { config := manual
    source := "manual"
    profileId := ""
    geoDir := geoDir
    globalProxy := false
    bootstrapHosts := hosts }

/-- What Connect and reloadCoreLocked start the core with. -/
def startedConfig (s : Start) : Baseline → Option Fields
  | .managed document manual geoDir =>
    prepareManagedConfig host document
      (optionsOf host s.tunArg s.apiPort (managedSelection manual geoDir s.hosts))
  | .shareLink selection =>
    shareLinkConfig host s.uri s.tunArg s.apiPort
      (selection.map fun found => { found with bootstrapHosts := s.hosts }) s.tunEnabled

def noSelection : RoutingSelection :=
  { config := ⟨"",[],none⟩
    source := ""
    profileId := ""
    geoDir := none
    globalProxy := false
    bootstrapHosts := [] }

/-- The rendering for `xray run -test`; an empty document means a share link. -/
def buildPreflightConfig (uri : String) (apiPort : ℤ) (selection : RoutingSelection)
    (withRouting tunActive : Bool) (rawConfig : RawMessage) : Option Fields :=
  if rawConfig ≠ "" then prepareManagedConfig host rawConfig (optionsOf host "" apiPort selection)
  else shareLinkConfig host uri "" apiPort (if withRouting then some selection else none) tunActive

def preflightConfig (s : Start) (tunActive : Bool) : Baseline → Option Fields
  | .managed document manual geoDir =>
    buildPreflightConfig host s.uri s.apiPort (managedSelection manual geoDir s.hosts) true
      tunActive document
  | .shareLink (some selection) =>
    buildPreflightConfig host s.uri s.apiPort { selection with bootstrapHosts := s.hosts } true
      tunActive ""
  | .shareLink none => buildPreflightConfig host s.uri s.apiPort noSelection false tunActive ""

def connectTested (s : Start) (b : Baseline) : Option Fields := preflightConfig host s s.tunEnabled b

/-- Without a TUN a reload tests what it is about to start. -/
def reloadTested (s : Start) (b : Baseline) : Option Fields :=
  if s.tunEnabled then preflightConfig host s true b else startedConfig host s b

end Program

section Meaning

def isTun (inbound : Value) : Bool := isStr (Fields.index inbound.asMap "protocol") "tun"

/-- The configuration without the TUN inbound. -/
def withoutTun (config : Fields) : Fields :=
  match config.index "inbounds" with
  | .arr inbounds => config.put "inbounds" (.arr (inbounds.filter fun v => !isTun v))
  | _ => config

/-- Both validations see the started configuration without the TUN inbound. -/
structure Mirrors (host : Host) (s : Start) (b : Baseline) (real : Fields) : Prop where
  connect : connectTested host s b = some (withoutTun real)
  reload : reloadTested host s b = some (withoutTun real)

def Baseline.isManaged : Baseline → Bool
  | .managed .. => true
  | .shareLink _ => false

end Meaning

section Without

theorem put_same {fields : Fields} {name : String} {v : Value} (h : fields.lookup name = some v) :
    fields.put name v = fields := by
  induction fields with
  | nil => exact nomatch h
  | cons e rest ih =>
    obtain ⟨k,w⟩ := e
    by_cases hk : name = k
    · subst hk
      have hw : w = v := by simpa using h
      simp [Fields.put,hw]
    · have hrest : rest.lookup name = some v := by
        simpa [List.lookup_cons,beq_false_of_ne hk] using h
      simp [Fields.put,hk,ih hrest]

theorem lookup_of_index {fields : Fields} {name : String} {v : Value} (h : fields.index name = v)
    (hv : v ≠ .null) : fields.lookup name = some v := by
  unfold Fields.index at h
  cases hl : fields.lookup name with
  | none => rw [hl] at h; exact absurd h.symm hv
  | some w => rw [hl] at h; exact congrArg some h

/-- Without a TUN inbound nothing changes. -/
theorem withoutTun_eq {config : Fields} (h : ∀ v ∈ inboundsOf config, isTun v = false) :
    withoutTun config = config := by
  unfold withoutTun
  cases hi : config.index "inbounds" with
  | arr inbounds =>
    have hkeep : inbounds.filter (fun v => !isTun v) = inbounds := by
      rw [List.filter_eq_self]
      intro v hv
      have hv' : v ∈ inboundsOf config := by
        unfold inboundsOf
        rw [hi]
        exact hv
      simp [h v hv']
    dsimp only
    rw [hkeep]
    exact put_same (lookup_of_index hi nofun)
  | _ => rfl

theorem isTun_sniff (fakeDNS : Bool) (v : Value) : isTun (sniffInbound fakeDNS v) = isTun v := by
  cases v with
  | obj inbound =>
    unfold sniffInbound
    dsimp only
    split
    · unfold isTun
      dsimp only [Value.asMap]
      rw [index_put_of_ne (by decide)]
    · rfl
  | _ => rfl

theorem filter_sniff (fakeDNS : Bool) (l : List Value) :
    (l.map (sniffInbound fakeDNS)).filter (fun v => !isTun v) =
      (l.filter fun v => !isTun v).map (sniffInbound fakeDNS) := by
  rw [List.filter_map]
  congr 2
  funext v
  simp [isTun_sniff]

theorem put_put (fields : Fields) (name : String) (v w : Value) :
    (fields.put name v).put name w = fields.put name w := by
  induction fields with
  | nil => simp [Fields.put]
  | cons e rest ih =>
    obtain ⟨k,u⟩ := e
    by_cases hk : name = k <;> simp [Fields.put,hk,ih]

/-- Members that are already there keep their place. -/
theorem put_comm {fields : Fields} {a b : String} (h : a ≠ b) (hb : fields.has b = true)
    (x y : Value) : (fields.put a x).put b y = (fields.put b y).put a x := by
  induction fields with
  | nil => exact nomatch hb
  | cons e rest ih =>
    obtain ⟨k,u⟩ := e
    by_cases hkb : b = k
    · subst hkb
      simp [Fields.put,h]
    · have hrest : Fields.has rest b = true := by
        simpa [Fields.has,List.lookup_cons,beq_false_of_ne hkb] using hb
      by_cases hka : a = k
      · subst hka
        simp [Fields.put,hkb]
      · simp [Fields.put,hka,hkb,ih hrest]

variable {config : Fields} {inbounds : List Value}

theorem withoutTun_arr (h : config.index "inbounds" = .arr inbounds) :
    withoutTun config = config.put "inbounds" (.arr (inbounds.filter fun v => !isTun v)) := by
  unfold withoutTun
  rw [h]

theorem index_withoutTun_of_ne {name : String} (hne : name ≠ "inbounds") (config : Fields) :
    Fields.index (withoutTun config) name = config.index name := by
  unfold withoutTun
  split
  · exact index_put_of_ne hne _ _
  · rfl

theorem has_withoutTun_of_ne {name : String} (hne : name ≠ "inbounds") (config : Fields) :
    Fields.has (withoutTun config) name = config.has name := by
  unfold withoutTun
  split
  · exact has_put_of_ne hne _ _
  · rfl

theorem withoutTun_put_self (inbounds : List Value) :
    withoutTun (config.put "inbounds" (.arr inbounds)) =
      config.put "inbounds" (.arr (inbounds.filter fun v => !isTun v)) := by
  rw [withoutTun_arr (index_put_self _ _ _),put_put]

theorem withoutTun_put {name : String} (hne : name ≠ "inbounds")
    (h : config.index "inbounds" = .arr inbounds) (v : Value) :
    withoutTun (config.put name v) = (withoutTun config).put name v := by
  have hput : Fields.index (config.put name v) "inbounds" = .arr inbounds := by
    rw [index_put_of_ne hne.symm,h]
  have hhas : config.has "inbounds" = true := by
    rw [Fields.has,lookup_of_index h (by simp)]
    rfl
  rw [withoutTun_arr hput,withoutTun_arr h,put_comm hne hhas]

theorem index_put_inbounds (name : String) (hne : name ≠ "inbounds")
    (h : config.index "inbounds" = .arr inbounds) (v : Value) :
    Fields.index (config.put name v) "inbounds" = .arr inbounds := by
  rw [index_put_of_ne hne.symm,h]

theorem withoutTun_injectStats (h : config.index "inbounds" = .arr inbounds) (apiPort : ℤ) :
    withoutTun (injectStatsConfig config apiPort) =
      injectStatsConfig (withoutTun config) apiPort := by
  have hpolicy : Fields.index ((withoutTun config).put "stats" (.obj [])) "policy" =
      Fields.index (config.put "stats" (.obj [])) "policy" := by
    rw [index_put_of_ne (by decide),index_put_of_ne (by decide),
      index_withoutTun_of_ne (by decide)]
  have hstats := index_put_inbounds "stats" (by decide) h (.obj [])
  unfold injectStatsConfig
  dsimp only
  rw [hpolicy]
  generalize XrayConfig.statsPolicy _ = policy
  have hfirst := index_put_inbounds "policy" (by decide) hstats (.obj policy)
  split
  · have hapi := index_put_inbounds "api" (by decide) hfirst XrayConfig.apiService
    rw [← withoutTun_put (by decide) h,← withoutTun_put (by decide) hstats,
      ← withoutTun_put (by decide) hfirst,withoutTun_put_self,hapi,withoutTun_arr hapi,put_put,
      index_put_self]
    simp [Value.asSlice,List.filter_append,isTun]
    rfl
  · rw [withoutTun_put (by decide) hstats,withoutTun_put (by decide) h]

theorem index_injectStats_inbounds (h : config.index "inbounds" = .arr inbounds) (apiPort : ℤ) :
    ∃ l, Fields.index (injectStatsConfig config apiPort) "inbounds" = .arr l := by
  unfold injectStatsConfig
  dsimp only
  split
  · exact ⟨_,index_put_self _ _ _⟩
  · exact ⟨_,index_put_inbounds "policy" (by decide) (index_put_inbounds "stats" (by decide) h _) _⟩

section Injection

variable (env : Env) (selection : RoutingSelection) (tunActive : Bool)

theorem index_injectDNS_inbounds (h : config.index "inbounds" = .arr inbounds) :
    Fields.index (injectDNS env selection tunActive config) "inbounds" = .arr inbounds := by
  unfold injectDNS
  dsimp only
  split
  · rename_i cfg _
    have hdns := index_put_inbounds "dns" (by decide) h
      (.obj (XrayConfig.buildHappDNSSection env selection cfg
        (fakeDNSActive env selection tunActive)))
    split
    · exact index_put_inbounds "fakedns" (by decide) hdns _
    · exact hdns
  · split
    · exact h
    · exact index_put_inbounds "dns" (by decide) h _

theorem withoutTun_injectDNS (h : config.index "inbounds" = .arr inbounds) :
    withoutTun (injectDNS env selection tunActive config) =
      injectDNS env selection tunActive (withoutTun config) := by
  unfold injectDNS
  dsimp only
  rw [has_withoutTun_of_ne (by decide)]
  split
  · rename_i cfg _
    have hdns := index_put_inbounds "dns" (by decide) h
      (.obj (XrayConfig.buildHappDNSSection env selection cfg
        (fakeDNSActive env selection tunActive)))
    split
    · rw [withoutTun_put (by decide) hdns,withoutTun_put (by decide) h]
    · rw [withoutTun_put (by decide) h]
  · split
    · rfl
    · rw [withoutTun_put (by decide) h]

theorem withoutTun_injectRouting (h : config.index "inbounds" = .arr inbounds) :
    withoutTun (injectRoutingConfig env config selection tunActive) =
      injectRoutingConfig env (withoutTun config) selection tunActive := by
  have hdns := index_injectDNS_inbounds env selection tunActive h
  unfold injectRoutingConfig
  dsimp only
  rw [has_withoutTun_of_ne (by decide),← withoutTun_injectDNS env selection tunActive h]
  generalize injectDNS env selection tunActive config = config at hdns
  generalize routingSection env selection tunActive _ = routing
  have hrouting := index_put_inbounds "routing" (by decide) hdns routing
  rw [← withoutTun_put (by decide) hdns,hrouting,withoutTun_arr hrouting,index_put_self]
  dsimp only
  rw [put_put]
  generalize Fields.put config "routing" routing = config
  -- the filter and the sniffing switches do not meet
  have hinbounds := @withoutTun_put_self config
    (inbounds.map (sniffInbound (fakeDNSActive env selection tunActive)))
  rw [filter_sniff] at hinbounds
  rw [index_put_of_ne (by decide),index_put_of_ne (by decide)]
  split
  · rw [withoutTun_put (by decide) (index_put_self _ _ _),hinbounds]
  · exact hinbounds

end Injection

theorem isTun_generated (socksPort httpPort : ℤ) (v : Value)
    (h : v ∈ (generateInboundConfig socksPort httpPort).map Value.obj) : isTun v = false := by
  obtain ⟨inbound,hin,rfl⟩ := List.mem_map.mp h
  unfold generateInboundConfig at hin
  rcases List.mem_append.mp hin with hin | hin <;> split_ifs at hin
  · cases List.mem_singleton.mp hin
    unfold isTun XrayConfig.generateSocksInbound XrayConfig.member
    split_ifs <;> rfl
  · exact absurd hin List.not_mem_nil
  · cases List.mem_singleton.mp hin
    unfold isTun XrayConfig.generateHTTPInbound XrayConfig.member
    split_ifs <;> rfl
  · exact absurd hin List.not_mem_nil

/-- The inbounds of a share link with the TUN left out. -/
theorem filter_generated (socksPort httpPort : ℤ) (tunName : String) :
    ((generateInboundConfigWithTun socksPort httpPort tunName).map Value.obj).filter
        (fun v => !isTun v) =
      (generateInboundConfigWithTun socksPort httpPort "").map Value.obj := by
  have hplain : generateInboundConfigWithTun socksPort httpPort "" =
      generateInboundConfig socksPort httpPort := by
    simp [generateInboundConfigWithTun]
  have hkeep : ((generateInboundConfig socksPort httpPort).map Value.obj).filter
      (fun v => !isTun v) = (generateInboundConfig socksPort httpPort).map Value.obj := by
    rw [List.filter_eq_self]
    intro v hv
    simp [isTun_generated socksPort httpPort v hv]
  rw [hplain]
  unfold generateInboundConfigWithTun
  rw [List.map_append,List.filter_append,hkeep]
  split_ifs
  · have htun : isTun (.obj (generateTunInbound tunName 1400)) = true := rfl
    simp [htun]
  · simp

theorem withoutTun_shareLink {host : Host} {uri tunName : String} {apiPort : ℤ}
    {selection : Option RoutingSelection} {tunActive : Bool} {real : Fields}
    (h : shareLinkConfig host uri tunName apiPort selection tunActive = some real) :
    shareLinkConfig host uri "" apiPort selection tunActive = some (withoutTun real) := by
  unfold shareLinkConfig parseUriWithTun at h ⊢
  rw [Option.map_map,Option.map_eq_some_iff] at h
  obtain ⟨outbound,ho,rfl⟩ := h
  rw [ho,Option.map_some,Option.map_some,Option.some.injEq]
  generalize hin : (generateInboundConfigWithTun host.socksPort host.httpPort tunName).map
    Value.obj = inbounds
  have hfilter := filter_generated host.socksPort host.httpPort tunName
  rw [hin] at hfilter
  dsimp only [Function.comp_apply]
  rw [← hfilter]
  have hbase : Fields.index [("outbounds",Value.arr [Value.obj outbound]),
      ("inbounds",Value.arr inbounds)] "inbounds" = .arr inbounds := rfl
  obtain ⟨l,hstats⟩ := index_injectStats_inbounds hbase apiPort
  cases selection with
  | some selection =>
    dsimp only
    rw [withoutTun_injectRouting host.env selection tunActive hstats,
      withoutTun_injectStats hbase]
    rfl
  | none =>
    dsimp only
    rw [withoutTun_injectStats hbase]
    rfl

end Without

section Managed

theorem isTun_started {config : Fields} {opts : Options} (htun : opts.tunName = "") (v : Value)
    (h : v ∈ inboundsOf (started config opts)) : isTun v = false := by
  rw [inboundsOf_started] at h
  rcases List.mem_append.mp h with h | h
  · obtain ⟨ob,port,-,hk,-,rfl⟩ := mem_keptInbounds.mp h
    unfold isTun
    rw [index_rebound (by decide)]
    rcases hk with ⟨hp,-⟩ | ⟨hp,-⟩
    · exact isStr_other ((isStr_iff_asString (by decide)).mpr hp) (by decide)
    · exact isStr_other ((isStr_iff_asString (by decide)).mpr hp) (by decide)
  · unfold addedInbounds at h
    simp only [htun,ne_eq,not_true_eq_false,if_false,List.append_nil,List.mem_append] at h
    rcases h with (h | h) | h <;> split_ifs at h <;>
      first
      | exact absurd h List.not_mem_nil
      | cases List.mem_singleton.mp h; rfl

variable {host : Host} {document : RawMessage} {opts : Options} {real : Fields}

theorem prepareManaged_some :
    prepareManagedConfig host document opts = some real ↔
      ∃ raw config, host.parseText document = some raw ∧ unmarshalMap raw = some config ∧
        (∃ ob, Value.obj ob ∈ outboundsOf config ∧ isProxyOutbound ob = true) ∧
        real = started config opts := by
  unfold prepareManagedConfig
  rw [Option.bind_eq_some_iff]
  constructor
  · rintro ⟨raw,hraw,h⟩
    cases hp : prepare raw opts with
    | error e =>
      rw [hp] at h
      exact nomatch h
    | ok prepared =>
      obtain ⟨config,hc,hproxy,rfl⟩ := prepare_ok.mp hp
      rw [hp] at h
      exact ⟨raw,config,hraw,hc,hproxy,(Option.some.inj h).symm⟩
  · rintro ⟨raw,config,hraw,hc,hproxy,rfl⟩
    have hp : prepare raw opts = .ok _ := prepare_ok.mpr ⟨config,hc,hproxy,rfl⟩
    refine ⟨raw,hraw,?_⟩
    rw [hp]
    rfl

theorem managed_without_tun (h : prepareManagedConfig host document opts = some real)
    (htun : opts.tunName = "") : withoutTun real = real := by
  obtain ⟨_,_,-,-,-,rfl⟩ := prepareManaged_some.mp h
  exact withoutTun_eq fun v hv => isTun_started htun v hv

theorem document_ne (h : prepareManagedConfig host document opts = some real) : document ≠ "" := by
  rintro rfl
  obtain ⟨_,_,hraw,-⟩ := prepareManaged_some.mp h
  exact nomatch host.parseText_empty.symm.trans hraw

/-- The capture rule of the TUN is missing from what is tested. -/
theorem capture_lost {tunName : String} {apiPort : ℤ} {selection : RoutingSelection}
    (htun : tunName ≠ "")
    (h : prepareManagedConfig host document (optionsOf host tunName apiPort selection) = some real) :
    prepareManagedConfig host document (optionsOf host "" apiPort selection) ≠
      some (withoutTun real) := by
  intro htested
  obtain ⟨raw,config,hraw,hc,hproxy,rfl⟩ := prepareManaged_some.mp h
  obtain ⟨_,_,hraw',hc',-,heq⟩ := prepareManaged_some.mp htested
  cases hraw.symm.trans hraw'
  cases hc.symm.trans hc'
  have hrules : rulesOf (withoutTun (started config (optionsOf host tunName apiPort selection))) =
      rulesOf (started config (optionsOf host tunName apiPort selection)) := by
    rw [rulesOf,routingOf,index_withoutTun_of_ne (by decide)]
    rfl
  rw [heq,rulesOf_started hproxy,rulesOf_started hproxy] at hrules
  have hlen := congrArg List.length hrules
  simp only [ProviderConfig.structuralRules,optionsOf,htun,List.length_append,ne_eq,
    not_true_eq_false,not_false_eq_true,if_true,if_false,List.length_nil,List.length_singleton]
    at hlen
  exact absurd (Nat.add_right_cancel (Nat.add_right_cancel hlen)) (Nat.lt_succ_self _).ne

end Managed

section Mirroring

variable {host : Host} {s : Start} {b : Baseline} {real : Fields}

theorem tunArg_off (h : s.tunEnabled = false) : s.tunArg = "" := by
  simp [Start.tunArg,h]

theorem preflight_managed {document : RawMessage} (hne : document ≠ "") (tunActive : Bool)
    (manual : RoutingConfig) (geoDir : Option (List String)) :
    preflightConfig host s tunActive (.managed document manual geoDir) =
      prepareManagedConfig host document
        (optionsOf host "" s.apiPort (managedSelection manual geoDir s.hosts)) := by
  simp [preflightConfig,buildPreflightConfig,hne]

theorem preflight_shareLink (selection : Option RoutingSelection) (tunActive : Bool) :
    preflightConfig host s tunActive (.shareLink selection) =
      shareLinkConfig host s.uri "" s.apiPort
        (selection.map fun found => { found with bootstrapHosts := s.hosts }) tunActive := by
  cases selection <;> simp [preflightConfig,buildPreflightConfig]

/-- What a connect tests is the started configuration without the TUN inbound. -/
theorem connectTested_iff (h : startedConfig host s b = some real) :
    connectTested host s b = some (withoutTun real) ↔ ¬(b.isManaged = true ∧ s.tunArg ≠ "") := by
  cases b with
  | managed document manual geoDir =>
    have hdoc := document_ne h
    rw [connectTested,preflight_managed hdoc]
    simp only [Baseline.isManaged,true_and,ne_eq,not_not]
    constructor
    · intro htested
      by_contra htun
      exact capture_lost htun h htested
    · intro htun
      have hreal := h
      rw [startedConfig,htun] at hreal
      rw [managed_without_tun hreal rfl,hreal]
  | shareLink selection =>
    rw [connectTested,preflight_shareLink]
    exact iff_of_true (withoutTun_shareLink h) fun hb => nomatch hb.1

theorem withoutTun_off (h : startedConfig host s b = some real) (htun : s.tunArg = "") :
    withoutTun real = real := by
  have htested := (connectTested_iff h).mpr fun hb => hb.2 htun
  cases b with
  | managed document manual geoDir =>
    rw [startedConfig,htun] at h
    exact managed_without_tun h rfl
  | shareLink selection =>
    rw [connectTested,preflight_shareLink,← htun] at htested
    exact Option.some.inj (htested.symm.trans h)

theorem mirrors_iff_plain (h : startedConfig host s b = some real) :
    Mirrors host s b real ↔ ¬(b.isManaged = true ∧ s.tunArg ≠ "") := by
  refine ⟨fun hm => (connectTested_iff h).mp hm.connect,fun hb => ?_⟩
  have hconnect := (connectTested_iff h).mpr hb
  refine ⟨hconnect,?_⟩
  unfold reloadTested
  cases he : s.tunEnabled with
  | true =>
    rw [connectTested,he] at hconnect
    exact hconnect
  | false => exact h.trans (congrArg some (withoutTun_off h (tunArg_off he)).symm)

/-- The tested configuration is the started one without its TUN inbound, for
every profile and every selection, except for a managed profile with a TUN. -/
theorem mirrors_iff (host : Host) (s : Start) (b : Baseline) (real : Fields)
    (h : startedConfig host s b = some real) :
    Mirrors host s b real ↔ ¬(b.isManaged = true ∧ s.tunArg ≠ "") := mirrors_iff_plain h

end Mirroring

section Samples

def providerText : RawMessage :=
  "\x7b\"outbounds\":[\x7b\"tag\":\"de\",\"protocol\":\"vless\"\x7d]\x7d"

/-- A host that knows one document and no share link. -/
def sampleHost : Host :=
  { socksPort := 1080
    httpPort := 1081
    env := ⟨[],"",RoutingStore.toLower,fun _ => ""⟩
    createOutboundObject := fun _ => none
    parseText := fun text =>
      if text = providerText then some (.obj (providerOf [outboundNamed "de" "vless"])) else none
    parseText_empty := by decide
    globalCopies := fun _ => false }

def startWith (tunEnabled : Bool) : Start :=
  { uri := ""
    tunName := "tun0"
    tunEnabled := tunEnabled
    apiPort := 10085
    hosts := [] }

def sampleBaseline : Baseline := .managed providerText ⟨"",[],none⟩ none

theorem started_sample (tunEnabled : Bool) :
    startedConfig sampleHost (startWith tunEnabled) sampleBaseline =
      some (started (providerOf [outboundNamed "de" "vless"])
        (optionsOf sampleHost (startWith tunEnabled).tunArg 10085
          (managedSelection ⟨"",[],none⟩ none []))) := by
  refine prepareManaged_some.mpr ⟨.obj (providerOf [outboundNamed "de" "vless"]),_,?_,rfl,
    ⟨_,List.mem_singleton.mpr rfl,by decide⟩,rfl⟩
  simp [sampleHost]

theorem plain_managed_mirrors :
    Mirrors sampleHost (startWith false) sampleBaseline
      (started (providerOf [outboundNamed "de" "vless"])
        (optionsOf sampleHost "" 10085 (managedSelection ⟨"",[],none⟩ none []))) :=
  (mirrors_iff _ _ _ _ (started_sample false)).mpr fun h => h.2 rfl

/-- With a TUN the rule for DNS queries runs without having been tested. -/
theorem capture_untested :
    ∃ real, startedConfig sampleHost (startWith true) sampleBaseline = some real ∧
      ¬Mirrors sampleHost (startWith true) sampleBaseline real :=
  ⟨_,started_sample true,fun h =>
    (mirrors_iff_plain (started_sample true)).mp h ⟨rfl,by decide⟩⟩

end Samples

end Whoisthat.CoreConfig
