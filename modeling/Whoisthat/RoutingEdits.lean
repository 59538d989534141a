import Whoisthat.Requests

/-!
# Editing routing without the DNS section

The client reads a routing configuration, changes its rules and sends it back. The
DNS section it only holds, as a value whose objects are in the order of their names; the
core gets it back unchanged.
-/

set_option autoImplicit false

namespace Whoisthat.RoutingEdits
open Whoisthat.Json Whoisthat.WireRecords Whoisthat.Structs Whoisthat.StructDecoding Whoisthat.MemberDecoding
open Whoisthat.Requests hiding int string integer

section Section

theorem dnsMembers_nodup : (dnsMembers.map Member.tag).Nodup := by
  simp [dnsMembers,member]

theorem dnsMembers_tags (d : HappDNSConfig) :
    dnsMembers.map Member.tag = d.json.entries.map Prod.fst := rfl

theorem dnsMembers_independent : Independent dnsMembers := by
  simp [Independent,dnsMembers,member]

theorem text_step {σ : Type} (tag : String) (get : σ → String) (set : σ → String → σ) (x : σ)
    (h : set x "" = x) (s : String) :
    (omitString s).elim x (fun v => (member tag Requests.string get set).into v x) = set x s := by
  by_cases hs : s = ""
  · simp [omitString,omitzero,hs,h]
  · simp [omitString,omitzero,hs,member]

theorem flag_step {σ : Type} (tag : String) (get : σ → Bool) (set : σ → Bool → σ) (x : σ)
    (h : set x false = x) (b : Bool) :
    (omitBool b).elim x (fun v => (member tag Requests.bool get set).into v x) = set x b := by
  cases b <;> simp [omitBool,omitzero,h,member]

/-- The hosts as the core writes them: in the order of their names. -/
def InOrder (d : HappDNSConfig) : Prop :=
  ∀ l ∈ d.hosts, (l.map Prod.fst).Pairwise fun a b => before a b = true

theorem hosts_step {σ : Type} (tag : String) (get : σ → Option (List (String × String)))
    (set : σ → Option (List (String × String)) → σ) (x : σ) (hget : get x = none)
    (h : set x none = x) {o : Option (List (String × String))}
    (ho : ∀ l ∈ o, (l.map Prod.fst).Pairwise fun a b => before a b = true) :
    (o.map fun l => Value.obj (l.map fun e => (e.1,.str e.2))).elim x
      (fun v => (member tag (map Requests.string "") get set).into v x) = set x o := by
  cases o with
  | none => exact h.symm
  | some l =>
    have hn : (l.map Prod.fst).Nodup := (ho l rfl).imp before_ne
    have hput := foldl_put (m := []) (fun s => string_into s "") hn
    simp only [Option.map_some,Option.elim_some,member,map,hget,Option.getD_none,hput]
    rfl

theorem dns_into {d : HappDNSConfig} (h : InOrder d) :
    happDNSConfig.into d.json.value zeroDNS = d := by
  rw [Record.value,Record.fields,happDNSConfig,
    into_written dnsMembers_nodup (List.Subset.refl _) (dnsMembers_tags d)]
  simp only [dnsMembers,HappDNSConfig.json,List.zip_cons_cons,List.zip_nil_right,List.foldl_cons,
    List.foldl_nil,zeroDNS]
  rw [flag_step "fake_dns_enabled" _ _ _ rfl,text_step "remote_dns_type" _ _ _ rfl,
    text_step "remote_dns_domain" _ _ _ rfl,text_step "remote_dns_ip" _ _ _ rfl,
    text_step "domestic_dns_type" _ _ _ rfl,text_step "domestic_dns_domain" _ _ _ rfl,
    text_step "domestic_dns_ip" _ _ _ rfl,hosts_step "hosts" _ _ _ rfl rfl h]

theorem text_accepts (s : String) : (omitString s).all Requests.string.accepts = true := by
  by_cases hs : s = "" <;> simp [omitString,omitzero,hs]

theorem flag_accepts (b : Bool) : (omitBool b).all Requests.bool.accepts = true := by
  cases b <;> simp [omitBool,omitzero]

theorem dns_accepts (d : HappDNSConfig) : happDNSConfig.accepts d.json.value = true := by
  have hhosts : (d.hosts.map fun l => Value.obj (l.map fun e => (e.1,.str e.2))).all
      (map Requests.string "").accepts = true := by
    cases d.hosts <;> simp [map]
  rw [Record.value,Record.fields,happDNSConfig,
    accepts_written dnsMembers_nodup (List.Subset.refl _) (dnsMembers_tags d)]
  simp [dnsMembers,HappDNSConfig.json,member,text_accepts,flag_accepts,hhosts]

/-- The members of a section are themselves held as they were. -/
theorem held_entry {d : HappDNSConfig} (h : InOrder d) :
    ∀ e ∈ d.json.entries, ∀ v ∈ e.2, held v = v := by
  have htext : ∀ s : String, ∀ v ∈ omitString s, held v = v := by
    intro s v hv
    obtain ⟨_,rfl⟩ : _ ∧ Value.str s = v := by simpa [omitString,omitzero] using hv
    rfl
  have hflag : ∀ b : Bool, ∀ v ∈ omitBool b, held v = v := by
    intro b v hv
    obtain ⟨_,rfl⟩ : _ ∧ Value.bool b = v := by simpa [omitBool,omitzero] using hv
    rfl
  have hhosts : ∀ v ∈ d.hosts.map (fun l => Value.obj (l.map fun e => (e.1,.str e.2))),
      held v = v := by
    intro v hv
    obtain ⟨l,hl,rfl⟩ := Option.map_eq_some_iff.mp hv
    have hnames : (([]++l.map fun e : String × String => (e.1,Value.str e.2)).map
        Prod.fst).Pairwise fun a b => before a b = true := by
      simpa [Function.comp_def] using h l hl
    rw [held,heldFields_sorted hnames]
    simp [held]
  intro e he
  simp only [HappDNSConfig.json,List.mem_cons,List.not_mem_nil,or_false] at he
  rcases he with rfl | rfl | rfl | rfl | rfl | rfl | rfl | rfl
  · exact hflag _
  · exact htext _
  · exact htext _
  · exact htext _
  · exact htext _
  · exact htext _
  · exact htext _
  · exact hhosts

/-- Whatever the order of a section's members, the client holds the same members. -/
theorem held_section {d : HappDNSConfig} (h : InOrder d) {ms : Fields}
    (hp : d.json.fields.Perm ms) : ∃ ms', held (.obj ms) = .obj ms' ∧ d.json.fields.Perm ms' := by
  have hn : (ms.map Prod.fst).Nodup := (hp.map _).nodup_iff.mp (names_nodup d.json)
  have hsame : (ms.map fun e => (e.1,held e.2)) = ms := by
    refine (List.map_congr_left fun e he => ?_).trans (List.map_id _)
    obtain ⟨e',he',hv⟩ := List.mem_filterMap.mp (hp.mem_iff.mpr he)
    obtain ⟨v,hv',rfl⟩ := Option.map_eq_some_iff.mp hv
    exact Prod.ext rfl (held_entry h e' he' v hv')
  have hheld : (heldFields [] ms).Perm (ms.map fun e => (e.1,held e.2)) := heldFields_perm hn
  rw [hsame] at hheld
  exact ⟨_,rfl,hp.trans hheld.symm⟩

/-- What the core makes of a section that the client holds and sends back. -/
theorem section_kept {d : HappDNSConfig} (h : InOrder d) :
    acceptsDNS (some (held d.json.value)) = true ∧
      seenDNS (some (held d.json.value)) = some d := by
  obtain ⟨ms,hms,hp⟩ := held_section h (.refl _)
  obtain ⟨ms',hms',hp'⟩ := held_section h hp
  have hvalue : held (held d.json.value) = .obj ms' := by
    rw [← hms']
    exact congrArg held hms
  constructor
  · rw [acceptsDNS,Option.all_some,hvalue,pointer_accepts (by simp),happDNSConfig,
      ← accepts_perm hp']
    exact dns_accepts d
  · have hinto := into_perm dnsMembers_independent hp' (names_nodup d.json)
      (fun e he => dnsMembers_tags d ▸ mem_written he) dnsMembers_nodup zeroDNS
    rw [seenDNS,Option.bind_some,hvalue,pointer_into (by simp),Option.getD_none,happDNSConfig,
      ← hinto]
    exact congrArg some (dns_into h)

end Section

section Edits

/-- The configuration that the client sends after it read `read` and was given another
strategy and other rules. -/
def edited (read : Protocol.RoutingConfig) (strategy : String) (rules : List RoutingRule) :
    Protocol.RoutingConfig := ⟨strategy,rules,read.dns.map held⟩

/-- The core gets the new strategy and the new rules, and its own DNS section. -/
theorem edited_routing {c : RoutingConfig} {read : Protocol.RoutingConfig}
    (hread : Protocol.RoutingConfig.deserialize c.json.fields = some read)
    (hhosts : ∀ d ∈ c.dns, InOrder d) (groupId : Int32) (strategy : String)
    (rules : List RoutingRule) :
    let request : ClientRequest := .updateRouting groupId (edited read strategy rules)
    dispatch (write request).1 (held (write request).2) =
      .handle (.updateRouting groupId.toInt64 ⟨strategy,some rules,c.dns⟩) := by
  intro request
  rw [ClientAgreement.read_routing] at hread
  obtain ⟨_,rfl⟩ := ensure_eq_some.mp hread
  have hkept : acceptsDNS ((ClientAgreement.seenRouting c).dns.map held) = true ∧
      seenDNS ((ClientAgreement.seenRouting c).dns.map held) = c.dns := by
    cases hc : c.dns with
    | none => simp [ClientAgreement.seenRouting,hc,acceptsDNS,seenDNS]
    | some d => simpa [ClientAgreement.seenRouting,hc] using section_kept (hhosts d hc)
  rw [dispatched_write]
  simp only [request,edited,received,if_pos hkept.1,seenRouting,hkept.2]

/-- A configuration with a host of its own. -/
def withHost : RoutingConfig :=
  ⟨"AsIs",some [],some ⟨true,"DoH","","1.1.1.1","","","",some [("a.test","1.1.1.1")]⟩⟩

theorem edited_routing_host : ∃ read,
    Protocol.RoutingConfig.deserialize withHost.json.fields = some read ∧
    dispatch (write (.updateRouting 3 (edited read "IPOnDemand" []))).1
        (held (write (.updateRouting 3 (edited read "IPOnDemand" []))).2) =
      .handle (.updateRouting 3 ⟨"IPOnDemand",some [],withHost.dns⟩) := by
  have hread : Protocol.RoutingConfig.deserialize withHost.json.fields =
      some (ClientAgreement.seenRouting withHost) := ClientAgreement.read_routing withHost
  have hhosts : ∀ d ∈ withHost.dns, InOrder d := by
    rintro d ⟨⟩ l ⟨⟩
    simp
  exact ⟨_,hread,edited_routing hread hhosts 3 "IPOnDemand" []⟩

end Edits

end Whoisthat.RoutingEdits
