import Whoisthat.ClientAgreement

/-!
# Every message the core sends, as the client dispatches it

A frame is read as a `TcpMessage`, its name selects the type its data is read
as, and data that cannot be read becomes an error event. The client holds the
content of a message exactly when its lists were made and its numbers keep
their value; the core also sends lists that nobody made.
-/

set_option autoImplicit false

namespace Whoisthat.Dispatch
open Json (Value Fields)
open WireRecords Structs ClientAgreement

section Client

inductive CoreEvent where
  | applicationState (s : Protocol.ApplicationState)
  | statusChanged (s : Protocol.ProxyStatus)
  | profilesAdded (profiles : List Protocol.Profile)
  | profilesDeleted (ids : List Protocol.ProfileID)
  | profileUpdated (p : Protocol.Profile)
  | profileDetails (d : Protocol.ProfileDetails)
  | groupAdded (g : Protocol.Group)
  | groupDeleted (id : Int32)
  | groupUpdated (g : Protocol.Group)
  | subscriptionUpdated (group : Protocol.Group) (profiles : List Protocol.Profile)
      (routingProfiles : List Protocol.RoutingProfileInfo) (auto : Bool)
  | tunStatusChanged (isEnabled : Bool)
  | isRootAnswer (isRoot : Bool)
  | warning (key content : String)
  | error (message : String)
  | trafficStats (s : Protocol.TrafficStats)
  | routingUpdated (groupId : Int32) (config : Protocol.RoutingConfig) (source : String)
      (custom : Option Protocol.RoutingConfig)
  | hwidUpdated (h : HwidData)
  | tunNameUpdated (name : String)
  | killSwitchUpdated (enabled armed : Bool)
  | splitTunnelUpdated (mode : String)
  | autoconnectUpdated (i : AutoconnectInfo)
  | testProgress (p : Protocol.TestProgress)
  | testConfigUpdated (c : Protocol.TestConfig)
  | xrayProgress (n : Protocol.XrayProgressNotification)
  | profilesReordered (groupId : Int32) (profileIds : List Int32)
  | groupsReordered (groupIds : List Int32)
  | profileMoved (oldProfile : Protocol.ProfileID) (newProfile : Protocol.Profile)

/-- `try_dispatch!` -/
def tryDispatch {α : Type} (data : Value) (name : String) (read : Fields → Option α)
    (event : α → CoreEvent) : CoreEvent :=
  (record read data).elim (.error ("Invalid " ++ name)) event

def dispatch (msg : Protocol.TcpMessage) : CoreEvent :=
  match msg.msg with
  | "application-state" =>
    tryDispatch msg.data "application-state" Protocol.ApplicationState.deserialize
      .applicationState
  | "status-changed" =>
    tryDispatch msg.data "status-changed" Protocol.ProxyStatus.deserialize .statusChanged
  | "profiles-added" =>
    tryDispatch msg.data "profiles-added"
      (required (vec (record Protocol.Profile.deserialize)) "profiles") .profilesAdded
  | "profiles-deleted" =>
    tryDispatch msg.data "profiles-deleted"
      (required (vec (record Protocol.ProfileID.deserialize)) "deleted-profiles") .profilesDeleted
  | "profile-updated" =>
    tryDispatch msg.data "profile-updated"
      (required (record Protocol.Profile.deserialize) "profile") .profileUpdated
  | "profile-details" =>
    tryDispatch msg.data "profile-details" Protocol.ProfileDetails.deserialize .profileDetails
  | "group-added" =>
    tryDispatch msg.data "group-added" Protocol.GroupAdded.deserialize fun d =>
      .groupAdded { Protocol.Group.default with
        id := d.id, name := d.name, subscriptionUrl := d.subscriptionUrl, lastId := 0 }
  | "group-deleted" =>
    tryDispatch msg.data "group-deleted" (required i32 "id") .groupDeleted
  | "group-updated" =>
    tryDispatch msg.data "group-updated" Protocol.Group.deserialize .groupUpdated
  | "subscription-updated" =>
    tryDispatch msg.data "subscription-updated" Protocol.SubscriptionUpdated.deserialize fun d =>
      .subscriptionUpdated d.group d.profiles d.routingProfiles d.auto
  | "profiles-reordered" =>
    tryDispatch msg.data "profiles-reordered" Protocol.ProfilesReordered.deserialize fun d =>
      .profilesReordered d.groupId d.profileIds
  | "groups-reordered" =>
    tryDispatch msg.data "groups-reordered" (required (vec i32) "group_ids") .groupsReordered
  | "profile-moved" =>
    tryDispatch msg.data "profile-moved" Protocol.ProfileMoved.deserialize fun d =>
      .profileMoved d.oldProfile d.newProfile
  | "tun-status-changed" =>
    tryDispatch msg.data "tun-status-changed" (required boolean "is_enabled") .tunStatusChanged
  | "is-root-answer" =>
    tryDispatch msg.data "is-root-answer" (required boolean "IsRoot") .isRootAnswer
  | "warn" =>
    tryDispatch msg.data "warn" Protocol.deserializeWarning fun d => .warning d.key d.content
  | "error" => tryDispatch msg.data "error" Protocol.deserializeWarning fun d => .error d.content
  | "traffic-stats" =>
    tryDispatch msg.data "traffic-stats" Protocol.TrafficStats.deserialize .trafficStats
  | "routing-updated" =>
    tryDispatch msg.data "routing-updated" Protocol.RoutingUpdated.deserialize fun d =>
      .routingUpdated d.groupId d.config d.source d.custom
  | "hwid-updated" =>
    tryDispatch msg.data "hwid-updated" Protocol.deserializeHwidData .hwidUpdated
  | "tun-name-updated" =>
    tryDispatch msg.data "tun-name-updated" (required string "tun_name") .tunNameUpdated
  | "kill-switch-updated" =>
    tryDispatch msg.data "kill-switch-updated" Protocol.deserializeKillSwitchData fun d =>
      .killSwitchUpdated d.enabled d.armed
  | "split-tunnel-updated" =>
    tryDispatch msg.data "split-tunnel-updated" (required string "mode") .splitTunnelUpdated
  | "autoconnect-updated" =>
    tryDispatch msg.data "autoconnect-updated" Protocol.deserializeAutoconnectInfo
      .autoconnectUpdated
  | "test-progress" =>
    tryDispatch msg.data "test-progress" Protocol.TestProgress.deserialize .testProgress
  | "test-config-updated" =>
    tryDispatch msg.data "test-config-updated"
      (required (record Protocol.TestConfig.deserialize) "config") .testConfigUpdated
  | "xray-progress" =>
    tryDispatch msg.data "xray-progress" Protocol.XrayProgressNotification.deserialize
      .xrayProgress
  | other => .error ("Unknown message: " ++ other)

/-- `recv` and `dispatch`; nothing if the frame is no message at all. -/
def receive (frame : Value) : Option CoreEvent :=
  (record Protocol.TcpMessage.deserialize frame).map dispatch

end Client

section Agreement

/-- The event with the content of the message. -/
def seen : Notification → CoreEvent
  | .applicationState s => .applicationState (seenApplication s)
  | .statusChanged s => .statusChanged (seenStatus s)
  | .profilesAdded l => .profilesAdded (l.items.map seenProfile)
  | .profilesDeleted l => .profilesDeleted (l.items.map seenProfileID)
  | .profileUpdated p => .profileUpdated (seenProfile p)
  | .profileDetails d => .profileDetails (seenDetails d)
  | .groupAdded g =>
    .groupAdded { Protocol.Group.default with
      id := narrow g.id, name := g.name, subscriptionUrl := g.subscriptionUrl }
  | .groupDeleted id => .groupDeleted (narrow id)
  | .groupUpdated g => .groupUpdated (seenGroup g)
  | .subscriptionUpdated u =>
    .subscriptionUpdated (seenGroup u.group) (u.profiles.items.map seenProfile)
      (u.routingProfiles.items.map seenInfo) u.auto
  | .profilesReordered r => .profilesReordered (narrow r.groupId) (r.profileIds.items.map narrow)
  | .groupsReordered l => .groupsReordered (l.items.map narrow)
  | .profileMoved m => .profileMoved (seenProfileID m.oldProfile) (seenProfile m.newProfile)
  | .tunStatusChanged b => .tunStatusChanged b
  | .isRootAnswer b => .isRootAnswer b
  | .warn w => .warning w.key w.content
  | .error w => .error w.content
  | .trafficStats s => .trafficStats ⟨s.proxyUp,s.proxyDown,s.directUp,s.directDown⟩
  | .routingUpdated u =>
    .routingUpdated (narrow u.groupId) (seenRouting u.config) u.source (u.custom.map seenRouting)
  | .hwidUpdated h => .hwidUpdated h
  | .tunNameUpdated s => .tunNameUpdated s
  | .killSwitchUpdated d => .killSwitchUpdated d.enabled d.armed
  | .splitTunnelUpdated s => .splitTunnelUpdated s
  | .autoconnectUpdated i => .autoconnectUpdated i
  | .testProgress p => .testProgress (seenProgress p)
  | .testConfigUpdated c => .testConfigUpdated (seenTestConfig c)
  | .xrayProgress n => .xrayProgress (seenXrayProgress n)

/-- The lists of the message were made and its numbers keep their value. -/
def fits : Notification → Bool
  | .applicationState s => fitsApplication s
  | .statusChanged s => fitsProfile s.profile
  | .profilesAdded l => made fitsProfile l
  | .profilesDeleted l => made fitsProfileID l
  | .profileUpdated p => fitsProfile p
  | .profileDetails d => fitsDetails d
  | .groupAdded g => small g.id
  | .groupDeleted id => small id
  | .groupUpdated g => fitsGroup g
  | .subscriptionUpdated u => fitsSubscription u
  | .profilesReordered r => small r.groupId && made small r.profileIds
  | .groupsReordered l => made small l
  | .profileMoved m => fitsProfileID m.oldProfile && fitsProfile m.newProfile
  | .routingUpdated u => fitsRoutingUpdated u
  | .testProgress p => small p.groupId && small p.tested && small p.total
  | .testConfigUpdated c => fitsTestConfig c
  | .xrayProgress n => small n.progress
  | _ => true

theorem read_frame (n : Notification) (id : String) :
    record Protocol.TcpMessage.deserialize (n.frame id) =
      some ⟨n.msg,n.data.value,if id = "" then none else some id⟩ := by
  have read : (omitString id).elim (some none) (optional string) =
      some (if id = "" then none else some id) := by
    by_cases h : id = ""
    · simp [h,omitString,omitzero]
    · simp [h,omitString,omitzero,WireRecords.optional]
  simp [Notification.frame,Protocol.TcpMessage.deserialize,List.lookup_cons,read]

theorem tryDispatch_ensure {α : Type} {data : Record} {read : Fields → Option α} {p : Bool} {a : α}
    (h : read data.fields = ensure p a) (name : String) (event : α → CoreEvent) :
    tryDispatch data.value name read event =
      if p then event a else .error ("Invalid " ++ name) := by
  rw [tryDispatch,record_value,h]
  cases p <;> rfl

theorem read_single {α : Type} {read : Reader α} {v : Value} {p : Bool} {a : α}
    (h : read v = ensure p a) (name : String) :
    required read name (single name v).fields = ensure p a := by
  simp [single,h]

/-- What the client makes of any message. -/
theorem dispatch_frame (n : Notification) (id : Option String) :
    dispatch ⟨n.msg,n.data.value,id⟩ =
      if fits n then seen n else .error ("Invalid " ++ n.msg) := by
  cases n with
  | applicationState s => exact tryDispatch_ensure (read_application s) _ _
  | statusChanged s => exact tryDispatch_ensure (read_status s) _ _
  | profilesAdded l => exact tryDispatch_ensure (read_single (read_profiles l) _) _ _
  | profilesDeleted l => exact tryDispatch_ensure (read_single (read_profileIDs l) _) _ _
  | profileUpdated p => exact tryDispatch_ensure (read_single (read_profile p) _) _ _
  | profileDetails d => exact tryDispatch_ensure (read_details d) _ _
  | groupAdded g => exact tryDispatch_ensure (read_groupAdded g) _ _
  | groupDeleted id => exact tryDispatch_ensure (read_single (i32_int id) _) _ _
  | groupUpdated g => exact tryDispatch_ensure (read_group g) _ _
  | subscriptionUpdated u => exact tryDispatch_ensure (read_subscription u) _ _
  | profilesReordered r => exact tryDispatch_ensure (read_reordered r) _ _
  | groupsReordered l => exact tryDispatch_ensure (read_single (read_ids l) _) _ _
  | profileMoved m => exact tryDispatch_ensure (read_moved m) _ _
  | tunStatusChanged b =>
    exact tryDispatch_ensure (p := true) (read_single (boolean_bool b) _) _ _
  | isRootAnswer b =>
    exact tryDispatch_ensure (p := true) (read_single (boolean_bool b) _) _ _
  | warn w => exact tryDispatch_ensure (p := true) (read_warning w) _ _
  | error w => exact tryDispatch_ensure (p := true) (read_warning w) _ _
  | trafficStats s => exact tryDispatch_ensure (p := true) (read_stats s) _ _
  | routingUpdated u => exact tryDispatch_ensure (read_routingUpdated u) _ _
  | hwidUpdated h => exact tryDispatch_ensure (p := true) (read_hwidData h) _ _
  | tunNameUpdated s =>
    exact tryDispatch_ensure (p := true) (read_single (string_str s) _) _ _
  | killSwitchUpdated d => exact tryDispatch_ensure (p := true) (read_killSwitch d) _ _
  | splitTunnelUpdated s =>
    exact tryDispatch_ensure (p := true) (read_single (string_str s) _) _ _
  | autoconnectUpdated i => exact tryDispatch_ensure (p := true) (read_autoconnectInfo i) _ _
  | testProgress p => exact tryDispatch_ensure (read_progress p) _ _
  | testConfigUpdated c => exact tryDispatch_ensure (read_single (read_testConfig c) _) _ _
  | xrayProgress n => exact tryDispatch_ensure (read_xrayProgress n) _ _

/-- The client gets the content of a message if and only if it fits. -/
theorem receive_iff_fits (n : Notification) (id : String) :
    receive (n.frame id) = some (seen n) ↔ fits n = true := by
  rw [receive,read_frame,Option.map_some,dispatch_frame]
  constructor
  · intro h
    by_contra hn
    rw [if_neg hn] at h
    cases n with
    | error w => exact hn rfl
    | _ => cases h
  · intro h
    rw [if_pos h]

end Agreement

section Producers

theorem foldl_collected {α : Type} (results : List (Option α)) (done : Slice α) :
    results.foldl (fun done r => r.elim done fun x => some (done.items ++ [x])) done =
      if results.filterMap id = [] then done else some (done.items ++ results.filterMap id) := by
  induction results generalizing done with
  | nil => rfl
  | cons r rest ih =>
    rw [List.foldl_cons,ih]
    cases r with
    | none => rfl
    | some x =>
      have hcons : (some x :: rest).filterMap id = x :: rest.filterMap id := rfl
      rw [hcons,if_neg (List.cons_ne_nil _ _)]
      by_cases h : rest.filterMap id = []
      · rw [if_pos h,h]
        rfl
      · rw [if_neg h]
        simp [Slice.items]

/-- `AddProfiles` and `DeleteProfiles` make their list with the first success. -/
theorem collected_made {α : Type} (fits : α → Bool) (results : List (Option α)) :
    made fits (collected results) = true ↔
      (∃ x, some x ∈ results) ∧ ∀ x, some x ∈ results → fits x = true := by
  have mem : ∀ x, x ∈ results.filterMap id ↔ some x ∈ results := by simp
  rw [collected,foldl_collected]
  by_cases h : results.filterMap id = []
  · have none_in : ¬∃ x, some x ∈ results := by
      rintro ⟨x,hx⟩
      have hm := (mem x).mpr hx
      rw [h] at hm
      cases hm
    rw [if_pos h]
    exact ⟨fun hm => Bool.noConfusion hm,fun hs => (none_in hs.1).elim⟩
  · obtain ⟨x,hx⟩ := List.exists_mem_of_ne_nil _ h
    have some_in : ∃ x, some x ∈ results := ⟨x,(mem x).mp hx⟩
    rw [if_neg h]
    simp only [made,Slice.items,Option.getD_none,List.nil_append,Option.isSome_some,Bool.true_and,
      Option.getD_some,List.all_eq_true,some_in,true_and,mem]

/-- Every message gets to the client with its content if and only if it fits.
What adding or deleting profiles reports fits only if one succeeded. -/
theorem content_kept (n : Notification) (id : String) (added : List (Option Profile))
    (deleted : List (Option ProfileID)) (config : RoutingConfig) :
    (receive (n.frame id) = some (seen n) ↔ fits n = true) ∧
    (fits (.profilesAdded (collected added)) = true ↔
      (∃ p, some p ∈ added) ∧ ∀ p, some p ∈ added → fitsProfile p = true) ∧
    (fits (.profilesDeleted (collected deleted)) = true ↔
      (∃ p, some p ∈ deleted) ∧ ∀ p, some p ∈ deleted → fitsProfileID p = true) ∧
    (fits (routingPayload config) = true ↔ config.rules.isSome = true) :=
  ⟨receive_iff_fits n id,collected_made fitsProfile added,collected_made fitsProfileID deleted,
    by simp [fits,routingPayload,fitsRoutingUpdated,show small 0 = true from rfl]⟩

/-- A server of a JSON subscription whose port nobody checked. -/
def sampleServer : Profile :=
  ⟨1,1,"","server","vless","","host","",0,0,0,0,3000000000,true,"key"⟩

/-- Nothing to add, a routing configuration without rules, and a port above
`2^31`: the client drops each of the three messages. -/
theorem unmade_rejected :
    receive ((Notification.profilesAdded (collected [])).frame "") ≠
        some (seen (.profilesAdded (collected []))) ∧
      receive ((routingPayload ⟨"AsIs",none,none⟩).frame "") ≠
        some (seen (routingPayload ⟨"AsIs",none,none⟩)) ∧
      receive ((Notification.profileUpdated sampleServer).frame "") ≠
        some (seen (.profileUpdated sampleServer)) := by
  have dropped : ∀ n : Notification, fits n = false →
      receive (n.frame "") ≠ some (seen n) := by
    intro n hf h
    rw [(receive_iff_fits n "").mp h] at hf
    cases hf
  exact ⟨dropped _ rfl,dropped _ rfl,dropped _ (by decide)⟩

end Producers

end Whoisthat.Dispatch
