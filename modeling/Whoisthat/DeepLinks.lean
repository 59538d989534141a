import Whoisthat.DeepLinkText
import Whoisthat.WhiteSpace

/-!
# Deep links

A deep link is a link of another kind behind `wit://`, a path with a subscription,
or an action with a query. Whatever it is, reading it ends in an action or an
error. What the query forms are written with comes back; a link with an unknown
action is judged by its parameters, where the scheme of a subscription is not looked at.
-/

set_option autoImplicit false

namespace Whoisthat.DeepLinks
open Whoisthat.Utf8 (Bytes)
open Whoisthat.LinkText (Result percent hash question colon slash equals ampersand)
open Whoisthat.HappLinks (ascii)
open Whoisthat.Delimiters
open Whoisthat.WhiteSpace (trimSpace)
open Whoisthat.DeepLinkText

section Source

inductive DeepLinkAction where
  | addSubscription (name url : Bytes)
  | addProfile (uri : Bytes) (groupName : Option Bytes)
  | connect
  | disconnect
  | toggle
  | importHappRouting (link : Bytes) (group : Option Bytes)
  deriving DecidableEq

/-- What `parse_deeplink` returns. -/
abbrev Parsed := Except Bytes DeepLinkAction

def startsWith (s : Bytes) (p : String) : Bool := (ascii p).isPrefixOf s

/-- `strip_prefix` -/
def stripped (s : Bytes) (p : String) : Option Bytes :=
  if startsWith s p then some (s.drop (ascii p).length) else none

def deriveNameFromUrl (url : Bytes) : Bytes :=
  let trimmed := ((stripped url "https://").or (stripped url "http://")).getD url
  let host := trimmed.takeWhile fun c => c ∉ [slash,question,hash,colon]
  if host = [] then ascii "Subscription" else host

def happRouting (lower : Bytes) : Bool :=
  startsWith lower "happ://routing/" || startsWith lower "happ:routing/"

def protocols : List String :=
  ["vless://","vmess://","trojan://","ss://","socks://","socks5://","hysteria2://","hy2://"]

def web (url : Bytes) : Bool := startsWith url "https://" || startsWith url "http://"

/-- The query parameters, the last one first. -/
abbrev Params := List (Bytes × Bytes)

def Params.get (ps : Params) (k : String) : Option Bytes := ps.lookup (ascii k)

variable (toLowercase : Bytes → Bytes)

def addPair (ps : Params) (pair : Bytes) : Result Params :=
  if equals ∈ pair then do
    let v ← urlDecode (after equals pair)
    return (toLowercase (before equals pair),v)::ps
  else return ps

def queryParams (queryStr : Bytes) : Result Params :=
  ((queryStr.splitOn ampersand).filter (· ≠ [])).foldlM (addPair toLowercase) []

def trimSlashes (s : Bytes) : Bytes := (s.reverse.dropWhile (· = slash)).reverse

def routingActions : List String := ["routing","happ","happ-routing","import-routing"]

def subscriptionActions : List String := ["sub","subscription","add-sub","install-sub","import-sub"]

def profileActions : List String := ["import","add","profile","node"]

def isAction (names : List String) (action : Bytes) : Bool := names.any fun n => ascii n = action

/-- The branch of an action that is none of the known ones. -/
def fallback (action : Bytes) (ps : Params) : Parsed :=
  match (ps.get "link").filter fun link => happRouting (toLowercase link) with
  | some link => .ok (.importHappRouting link (ps.get "group"))
  | none =>
    match (ps.get "url").or (ps.get "sub") with
    | some url => .ok (.addSubscription ((ps.get "name").getD (deriveNameFromUrl url)) url)
    | none =>
      match ps.get "uri" with
      | some uri => .ok (.addProfile uri (ps.get "group"))
      | none => .error (ascii "Unknown deep link action: '" ++ action ++ ascii "'")

def runAction (action : Bytes) (ps : Params) : Parsed :=
  if action = ascii "connect" then .ok .connect
  else if action = ascii "disconnect" then .ok .disconnect
  else if action = ascii "toggle" then .ok .toggle
  else if isAction routingActions action then
    match ((ps.get "link").or (ps.get "url")).or (ps.get "uri") with
    | none => .error (ascii "Missing 'link' parameter in routing deep link")
    | some link => .ok (.importHappRouting link (ps.get "group"))
  else if isAction subscriptionActions action then
    match ((ps.get "url").or (ps.get "link")).or (ps.get "sub") with
    | none => .error (ascii "Missing 'url' parameter in subscription deep link")
    | some url =>
      if !startsWith url "http://" && !startsWith url "https://" then
        .error (ascii "Subscription URL must use http:// or https://: " ++ url)
      else .ok (.addSubscription
        (((ps.get "name").or (ps.get "title")).getD (deriveNameFromUrl url)) url)
  else if isAction profileActions action then
    match ((ps.get "uri").or (ps.get "link")).or (ps.get "url") with
    | none => .error (ascii "Missing 'uri' parameter in profile deep link")
    | some uri => .ok (.addProfile uri (ps.get "group"))
  else fallback toLowercase action ps

/-- The action and the query of a link. -/
def splitAction (s : Bytes) : Bytes × Bytes :=
  if question ∈ s then (trimSlashes (before question s),after question s) else (trimSlashes s,[])

/-- A subscription behind `sub/`. -/
def pathUrl (rest : Bytes) : Result Bytes :=
  if web rest then .ok rest
  else if startsWith rest "https%3A%2F%2F" || startsWith rest "http%3A%2F%2F" then urlDecode rest
  else .ok (ascii "https://" ++ rest)

def pathRest (s : Bytes) : Option Bytes :=
  ((stripped s "sub/").or (stripped s "subscription/")).or (stripped s "add-sub/")

/-- `parse_deeplink` behind the scheme and the slashes after it. -/
def parseRest (s : Bytes) : Result Parsed :=
  if happRouting (toLowercase s) then .ok (.ok (.importHappRouting s none))
  else if protocols.any (startsWith s) then .ok (.ok (.addProfile s none))
  else if web s then .ok (.ok (.addSubscription (deriveNameFromUrl s) s))
  else
    match pathRest s with
    | some rest => do
      let url ← pathUrl rest
      return .ok (.addSubscription (deriveNameFromUrl url) url)
    | none => do
      let ps ← queryParams toLowercase (splitAction s).2
      return runAction toLowercase (splitAction s).1 ps

def parseDeeplink (link : Bytes) : Result Parsed :=
  let raw := trimSpace link
  if raw = [] then .ok (.error (ascii "Empty deep link"))
  else if happRouting (toLowercase raw) then .ok (.ok (.importHappRouting raw none))
  else
    match (stripped raw "wit://").or (stripped raw "wit:") with
    | none => .ok (.error
        (ascii "Invalid scheme in deep link (expected wit:// or happ://routing/...): " ++ raw))
    | some afterScheme => parseRest toLowercase (afterScheme.dropWhile (· = slash))

end Source

section Reading

variable {toLowercase : Bytes → Bytes}

/-- A decoded value. -/
def decoded (v : Bytes) : Bytes := fromUtf8Lossy (decodeAfter 0 v)

/-- The parameters of a query, without the indices. -/
def params (toLowercase : Bytes → Bytes) (queryStr : Bytes) : Params :=
  ((queryStr.splitOn ampersand).filter (· ≠ [])).foldl (fun ps pair =>
    if equals ∈ pair then (toLowercase (before equals pair),decoded (after equals pair))::ps
    else ps) []

theorem queryParams_eq (queryStr : Bytes) :
    queryParams toLowercase queryStr = .ok (params toLowercase queryStr) := by
  have hfold : ∀ (l : List Bytes) (ps : Params), l.foldlM (addPair toLowercase) ps =
      .ok (l.foldl (fun ps pair => if equals ∈ pair then
        (toLowercase (before equals pair),decoded (after equals pair))::ps else ps) ps) := by
    intro l
    induction l with
    | nil => exact fun ps => rfl
    | cons pair l ih =>
      intro ps
      rw [List.foldlM_cons,List.foldl_cons,addPair]
      split
      · rw [urlDecode_eq]
        exact ih _
      · exact ih _
  exact hfold _ []

/-- An action that no branch of its own knows. -/
def unknown (action : Bytes) : Bool :=
  !(action = ascii "connect" || action = ascii "disconnect" || action = ascii "toggle" ||
    isAction routingActions action || isAction subscriptionActions action ||
    isAction profileActions action)

/-- The parameter that an unknown action makes a subscription. -/
def fallbackUrl (toLowercase : Bytes → Bytes) (action : Bytes) (ps : Params) : Option Bytes :=
  if unknown action && ((ps.get "link").filter fun link => happRouting (toLowercase link)).isNone
  then (ps.get "url").or (ps.get "sub") else none

def uncheckedRest (toLowercase : Bytes → Bytes) (s : Bytes) : Option Bytes :=
  if happRouting (toLowercase s) || protocols.any (startsWith s) || web s || (pathRest s).isSome
  then none else fallbackUrl toLowercase (splitAction s).1 (params toLowercase (splitAction s).2)

/-- The subscription that a link with an unknown action names in its parameters. -/
def uncheckedUrl (toLowercase : Bytes → Bytes) (link : Bytes) : Option Bytes :=
  let raw := trimSpace link
  if raw = [] || happRouting (toLowercase raw) then none
  else ((stripped raw "wit://").or (stripped raw "wit:")).bind fun afterScheme =>
    uncheckedRest toLowercase (afterScheme.dropWhile (· = slash))

/-- A result is checked, unless it is the subscription of an unknown action. -/
def Checked (url : Option Bytes) (r : Parsed) : Prop :=
  (url = none ∧ ∀ name u, r = .ok (.addSubscription name u) → web u = true) ∨
    ∃ name u, url = some u ∧ r = .ok (.addSubscription name u)

theorem checked_other {r : Parsed} (h : ∀ name u, r ≠ .ok (.addSubscription name u)) :
    Checked none r := .inl ⟨rfl,fun name u hr => absurd hr (h name u)⟩

theorem checked_web {name u : Bytes} (h : web u = true) :
    Checked none (.ok (.addSubscription name u)) :=
  .inl ⟨rfl,fun _ _ hr => by cases hr; exact h⟩

theorem fallback_checked (action : Bytes) (ps : Params) (h : unknown action = true) :
    Checked (fallbackUrl toLowercase action ps) (fallback toLowercase action ps) := by
  rw [fallbackUrl,fallback,h,Bool.true_and]
  rcases (ps.get "link").filter (fun link => happRouting (toLowercase link)) with _ | link
  · rw [Option.isNone_none,if_pos rfl]
    rcases (ps.get "url").or (ps.get "sub") with _ | url
    · refine checked_other fun name u => ?_
      rcases ps.get "uri" with _ | uri <;> exact nofun
    · exact .inr ⟨_,url,rfl,rfl⟩
  · exact checked_other nofun

theorem fallbackUrl_known {action : Bytes} (ps : Params) (h : unknown action = false) :
    fallbackUrl toLowercase action ps = none := by
  rw [fallbackUrl,h]
  rfl

theorem runAction_checked (action : Bytes) (ps : Params) :
    Checked (fallbackUrl toLowercase action ps) (runAction toLowercase action ps) := by
  cases h : unknown action with
  | true =>
    have hfallback : runAction toLowercase action ps = fallback toLowercase action ps := by
      simp only [unknown,Bool.not_eq_true',Bool.or_eq_false_iff,decide_eq_false_iff_not] at h
      obtain ⟨⟨⟨⟨⟨hconnect,hdisconnect⟩,htoggle⟩,hrouting⟩,hsubscription⟩,hprofile⟩ := h
      simp only [runAction,hconnect,hdisconnect,htoggle,hrouting,hsubscription,hprofile,if_false,
        Bool.false_eq_true]
    rw [hfallback]
    exact fallback_checked action ps h
  | false =>
    rw [fallbackUrl_known ps h,runAction]
    split
    · exact checked_other nofun
    split
    · exact checked_other nofun
    split
    · exact checked_other nofun
    split
    · split <;> exact checked_other nofun
    split
    · split
      · exact checked_other nofun
      · next url _ =>
        split
        · exact checked_other nofun
        · next hweb =>
          refine checked_web ?_
          rw [Bool.and_eq_true,Bool.not_eq_true',Bool.not_eq_true',not_and_or] at hweb
          simp only [Bool.not_eq_false] at hweb
          rw [web,Bool.or_eq_true]
          exact hweb.symm
    split
    · split <;> exact checked_other nofun
    · next hconnect hdisconnect htoggle hrouting hsubscription hprofile =>
      simp [unknown,hconnect,hdisconnect,htoggle,hrouting,hsubscription,hprofile] at h

theorem startsWith_iff {s : Bytes} {p : String} :
    startsWith s p = true ↔ ascii p <+: s := List.isPrefixOf_iff_prefix

theorem startsWith_append (p : String) (s : Bytes) : startsWith (ascii p ++ s) p = true :=
  startsWith_iff.mpr (List.prefix_append _ s)

theorem web_https (s : Bytes) : web (ascii "https://" ++ s) = true := by
  rw [web,startsWith_append,Bool.true_or]

theorem web_http (s : Bytes) : web (ascii "http://" ++ s) = true := by
  rw [web,startsWith_append,Bool.or_true]

/-- An encoded scheme is decoded to what it stands for. -/
theorem decoded_scheme {m n : Bytes} (h : Percent.Escaped (fun c => c = plus) m n)
    (hm : m.all (fun c => c < 0x80) = true) (s : Bytes) :
    decoded (n ++ s) = m ++ fromUtf8Lossy (decodeAfter 0 s) := by
  have hascii : ∀ c ∈ m, c < 0x80 := fun c hc =>
    of_decide_eq_true (List.all_eq_true.mp hm c hc)
  rw [decoded,decodeAfter_escaped rfl h,fromUtf8Lossy_ascii hascii]

theorem escaped_https : Percent.Escaped (fun c => c = plus) (ascii "https://")
    (ascii "https%3A%2F%2F") :=
  .keep (by decide) (by decide) (.keep (by decide) (by decide) (.keep (by decide) (by decide)
    (.keep (by decide) (by decide) (.keep (by decide) (by decide) (.escape (by decide)
      (.escape (by decide) (.escape (by decide) .nil)))))))

theorem escaped_http : Percent.Escaped (fun c => c = plus) (ascii "http://")
    (ascii "http%3A%2F%2F") :=
  .keep (by decide) (by decide) (.keep (by decide) (by decide) (.keep (by decide) (by decide)
    (.keep (by decide) (by decide) (.escape (by decide) (.escape (by decide)
      (.escape (by decide) .nil))))))

/-- Every path is a subscription over HTTP. -/
theorem pathUrl_web (rest : Bytes) : ∃ url, pathUrl rest = .ok url ∧ web url = true := by
  rw [pathUrl]
  split
  · next h => exact ⟨rest,rfl,h⟩
  split
  · next h =>
    refine ⟨decoded rest,urlDecode_eq rest,?_⟩
    rw [Bool.or_eq_true,startsWith_iff,startsWith_iff] at h
    rcases h with ⟨t,rfl⟩ | ⟨t,rfl⟩
    · rw [decoded_scheme escaped_https (by decide)]
      exact web_https _
    · rw [decoded_scheme escaped_http (by decide)]
      exact web_http _
  · exact ⟨_,rfl,web_https rest⟩

theorem parseRest_checked (s : Bytes) :
    ∃ r, parseRest toLowercase s = .ok r ∧ Checked (uncheckedRest toLowercase s) r := by
  rw [parseRest,uncheckedRest]
  by_cases hrouting : happRouting (toLowercase s) = true
  · rw [if_pos hrouting,hrouting,Bool.true_or,Bool.true_or,Bool.true_or,if_pos rfl]
    exact ⟨_,rfl,checked_other nofun⟩
  by_cases hprotocol : protocols.any (startsWith s) = true
  · rw [if_neg hrouting,if_pos hprotocol,hprotocol,Bool.or_true,Bool.true_or,Bool.true_or,
      if_pos rfl]
    exact ⟨_,rfl,checked_other nofun⟩
  by_cases hweb : web s = true
  · rw [if_neg hrouting,if_neg hprotocol,if_pos hweb,hweb,Bool.or_true,Bool.true_or,if_pos rfl]
    exact ⟨_,rfl,checked_web hweb⟩
  rw [if_neg hrouting,if_neg hprotocol,if_neg hweb]
  rcases hpath : pathRest s with _ | rest
  · have hnone : (happRouting (toLowercase s) || protocols.any (startsWith s) || web s ||
        (none : Option Bytes).isSome) = false := by
      rw [Bool.eq_false_of_not_eq_true hrouting,Bool.eq_false_of_not_eq_true hprotocol,
        Bool.eq_false_of_not_eq_true hweb]
      rfl
    rw [hnone]
    simp only [queryParams_eq,bind,Except.bind,pure,Except.pure,Bool.false_eq_true,if_false]
    exact ⟨_,rfl,runAction_checked _ _⟩
  · obtain ⟨url,hurl,hpathweb⟩ := pathUrl_web rest
    simp only [hurl,bind,Except.bind,pure,Except.pure,Option.isSome_some,Bool.or_true,if_true]
    exact ⟨_,rfl,checked_web hpathweb⟩

/-- Whatever the link is, it is read without a panic, and its result is checked but for
the subscription of an unknown action. -/
theorem parseDeeplink_checked (link : Bytes) :
    ∃ r, parseDeeplink toLowercase link = .ok r ∧ Checked (uncheckedUrl toLowercase link) r := by
  simp only [parseDeeplink,uncheckedUrl]
  by_cases hempty : trimSpace link = []
  · simp only [hempty,if_true,decide_true,Bool.true_or]
    exact ⟨_,rfl,checked_other nofun⟩
  by_cases hrouting : happRouting (toLowercase (trimSpace link)) = true
  · simp only [hempty,if_false,hrouting,if_true,Bool.or_true]
    exact ⟨_,rfl,checked_other nofun⟩
  simp only [hempty,if_false,hrouting,decide_false,Bool.or_false,Bool.false_eq_true]
  rcases (stripped (trimSpace link) "wit://").or (stripped (trimSpace link) "wit:") with _ | rest
  · exact ⟨_,rfl,checked_other nofun⟩
  · exact parseRest_checked _

end Reading

end Whoisthat.DeepLinks
