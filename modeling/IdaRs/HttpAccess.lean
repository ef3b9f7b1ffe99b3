import IdaRs.CheckedPath
import IdaRs.IpAddr

/-!
# The access check of the HTTP server (`src/server/http_access.rs`)

`HttpAccessService` asks `HttpAccessPolicy::validate` before the MCP service sees a request. A browser sends the name
it has looked up as `Host`, so a page that rebinds its own name to this machine is told apart by that name alone.

`http::uri::Authority` is not in this repository: `authority` is its parser, with the host and the port as a number. A
header is given by what `to_str` makes of its first value, `none` when that is not visible text.
-/

namespace IdaRs.HttpAccess

open CheckedPath (trimText trimText_trimText)

/-- `text` is what the address is displayed as. -/
structure SocketAddr where
  ip : IpAddr
  port : Nat
  text : String

structure NormalizedAuthority where
  host : String
  port : Option Nat
deriving DecidableEq, Repr

def NormalizedAuthority.display (a : NormalizedAuthority) : String :=
  match a.port with
  | some port => a.host ++ ":" ++ port.repr
  | none => a.host

inductive HostAllowList
  | any
  | restricted (hosts : List NormalizedAuthority)
deriving DecidableEq, Repr

structure HttpAccessPolicy where
  bindAddr : SocketAddr
  allowedOrigins : List String
  allowedHosts : HostAllowList

/-- The headers the check reads. -/
structure Headers where
  origin : Option (Option String)
  host : Option (Option String)

structure AccessResponse where
  status : Nat
  message : String
deriving DecidableEq, Repr

def cleanAllowlist (values : List String) : List String := (values.map trimText).filter (· ≠ "")

/-- `trim_matches` of a character. -/
def trimMatches (c : Char) (s : List Char) : List Char := ((s.dropWhile (· = c)).reverse.dropWhile (· = c)).reverse

def normalizeHost (host : String) : String :=
  String.ofList ((trimMatches ']' (trimMatches '[' host.toList)).map Char.toLower)

def normalizeAuthority (host : String) (port : Option Nat) : NormalizedAuthority := ⟨normalizeHost host, port⟩

def portMatches (hostPort : Option Nat) (bindPort : Nat) : Bool :=
  match hostPort with
  | some port => port = bindPort
  | none => true

section

variable (authority : String → Option (String × Option Nat))

def parseAllowedAuthority (allowed : String) : Option NormalizedAuthority :=
  let allowed := trimText allowed
  if allowed = "" then none
  else
    match authority allowed with
    | some (host, port) => some (normalizeAuthority host port)
    | none => some (normalizeAuthority allowed none)

/-- The loop over the values of `--allow-host`; `none` when it returns at a `*`. -/
def allowedAuthorities : List String → Option (List NormalizedAuthority)
  | [] => some []
  | value :: values =>
    let value := trimText value
    if value = "*" then none
    else if value = "" then allowedAuthorities values
    else (allowedAuthorities values).map ((parseAllowedAuthority authority value).toList ++ ·)

def HostAllowList.fromCli (allowHost : Option (List String)) : HostAllowList :=
  match allowHost with
  | none => .restricted []
  | some values =>
    match allowedAuthorities authority values with
    | none | some [] => .any
    | some hosts => .restricted hosts

def HostAllowList.contains (hosts : HostAllowList) (host : NormalizedAuthority) : Bool :=
  match hosts with
  | .any => true
  | .restricted allowedHosts => allowedHosts.any fun allowed =>
    decide (allowed.host = host.host) &&
      match allowed.port with
      | some port => host.port = some port
      | none => true

def parseHostHeader (headers : Headers) : Except AccessResponse NormalizedAuthority :=
  match headers.host with
  | none => .error ⟨400, "Bad Request: missing Host header"⟩
  | some none => .error ⟨400, "Bad Request: invalid Host header"⟩
  | some (some host) =>
    match authority host with
    | some (host, port) => .ok (normalizeAuthority host port)
    | none => .error ⟨400, "Bad Request: invalid Host header"⟩

namespace HttpAccessPolicy

def fromCli (bindAddr : SocketAddr) (allowOrigin : List String) (allowHost : Option (List String)) :
    HttpAccessPolicy where
  bindAddr
  allowedOrigins := cleanAllowlist allowOrigin
  allowedHosts := .fromCli authority allowHost

variable (policy : HttpAccessPolicy) (headers : Headers)

def hostCheckDisabled : Bool := policy.allowedHosts = .any

def hostPolicySummary : String :=
  match policy.allowedHosts with
  | .any => "disabled; all Host values are allowed"
  | .restricted [] => "bind-derived IP hosts for " ++ policy.bindAddr.text
  | .restricted extraHosts =>
    "bind-derived IP hosts for " ++ policy.bindAddr.text ++ "; extra allowlist: " ++
      ",".intercalate (extraHosts.map NormalizedAuthority.display)

def hostAllowedByBind (host : NormalizedAuthority) : Bool :=
  let bindIp := policy.bindAddr.ip
  if !portMatches host.port policy.bindAddr.port then false
  else if host.host = "localhost" then bindIp.isLoopback || bindIp.isUnspecified
  else
    match parseIpAddr host.host.toList with
    | none => false
    | some hostIp =>
      if bindIp.isUnspecified then true
      else if bindIp.isLoopback then hostIp.isLoopback
      else hostIp = bindIp

def validateOrigin : Except AccessResponse Unit :=
  match headers.origin with
  | none => .ok ()
  | some none => .error ⟨400, "Bad Request: invalid Origin"⟩
  | some (some origin) =>
    if origin ∈ policy.allowedOrigins then .ok () else .error ⟨403, "Forbidden: Origin is not allowed"⟩

def validateHost : Except AccessResponse Unit := do
  let host ← parseHostHeader authority headers
  if policy.hostCheckDisabled then return ()
  if policy.hostAllowedByBind host || policy.allowedHosts.contains host then return ()
  throw ⟨403, "Forbidden: Host header '" ++ host.display ++ "' is not allowed; " ++ policy.hostPolicySummary⟩

def validate : Except AccessResponse Unit := do
  policy.validateOrigin headers
  policy.validateHost authority headers

end HttpAccessPolicy

/-- What a request comes to: an answer of the MCP service, or the refusal. -/
inductive Served (ρ : Type)
  | inner (response : ρ)
  | refused (response : AccessResponse)

/-- `HttpAccessService::call`; `inner` is the MCP service. -/
def call {ρ : Type} (policy : HttpAccessPolicy) (inner : Headers → ρ) (headers : Headers) : Served ρ :=
  match policy.validate authority headers with
  | .ok () => .inner (inner headers)
  | .error response => .refused response

end

/-! ### What is let through -/

variable {authority : String → Option (String × Option Nat)} {bindAddr : SocketAddr} {allowOrigin : List String}
  {allowHost : Option (List String)} {headers : Headers}

/-- No page sent the request, or one of an origin that is listed. -/
def OriginListed (allowOrigin : List String) (headers : Headers) : Prop :=
  headers.origin = none ∨
    ∃ origin, headers.origin = some (some origin) ∧ origin ≠ "" ∧ ∃ value ∈ allowOrigin, trimText value = origin

/-- The check of the host is turned off: by a `*`, or by a list without an entry. -/
def Unchecked (allowHost : Option (List String)) : Prop :=
  ∃ values, allowHost = some values ∧ ((∃ value ∈ values, trimText value = "*") ∨ ∀ value ∈ values, trimText value = "")

/-- The name is one for the address the server listens on. -/
def Bound (bindAddr : SocketAddr) (host : NormalizedAuthority) : Prop :=
  (host.port = none ∨ host.port = some bindAddr.port) ∧
    (host.host = "localhost" ∧ (bindAddr.ip.isLoopback ∨ bindAddr.ip.isUnspecified) ∨
      ∃ ip, parseIpAddr host.host.toList = some ip ∧
        (bindAddr.ip.isUnspecified ∨ bindAddr.ip.isLoopback ∧ ip.isLoopback ∨ ip = bindAddr.ip))

/-- The host is one of those the operator lists; a port that is listed is its port. -/
def Listed (authority : String → Option (String × Option Nat)) (allowHost : Option (List String))
    (host : NormalizedAuthority) : Prop :=
  ∃ values, allowHost = some values ∧ ∃ value ∈ values, ∃ allowed,
    parseAllowedAuthority authority value = some allowed ∧ allowed.host = host.host ∧
      (allowed.port = none ∨ host.port = allowed.port)

/-- `Authority::try_from` of the text of the header, normalised. -/
def Names (authority : String → Option (String × Option Nat)) (headers : Headers) (host : NormalizedAuthority) : Prop :=
  ∃ text name port, headers.host = some (some text) ∧ authority text = some (name, port) ∧
    host = normalizeAuthority name port

theorem parseAllowedAuthority_trim (value : String) :
    parseAllowedAuthority authority (trimText value) = parseAllowedAuthority authority value := by
  simp only [parseAllowedAuthority, trimText_trimText]

theorem parseAllowedAuthority_eq_none {value : String} :
    parseAllowedAuthority authority value = none ↔ trimText value = "" := by
  unfold parseAllowedAuthority
  simp only
  split
  · rename_i h
    exact iff_of_true rfl h
  · rename_i h
    refine iff_of_false ?_ h
    split <;> exact Option.some_ne_none _

/-- The loop ends at a `*`, or it has the entries that are not blank. -/
theorem allowedAuthorities_eq (values : List String) : allowedAuthorities authority values =
    if ∃ value ∈ values, trimText value = "*" then none
    else some (values.filterMap (parseAllowedAuthority authority)) := by
  induction values with
  | nil => rfl
  | cons value values ih =>
    unfold allowedAuthorities
    simp only [List.exists_mem_cons_iff]
    by_cases hstar : trimText value = "*"
    · rw [if_pos hstar, if_pos (.inl hstar)]
    rw [if_neg hstar]
    by_cases hrest : ∃ value ∈ values, trimText value = "*"
    · rw [ih, if_pos hrest, if_pos (Or.inr hrest)]
      split <;> rfl
    rw [ih, if_neg hrest, if_neg (not_or.2 ⟨hstar, hrest⟩), parseAllowedAuthority_trim]
    by_cases hblank : trimText value = ""
    · rw [if_pos hblank, List.filterMap_cons_none (parseAllowedAuthority_eq_none.2 hblank)]
    · rw [if_neg hblank]
      obtain ⟨allowed, hallowed⟩ := Option.ne_none_iff_exists'.1 (mt parseAllowedAuthority_eq_none.1 hblank)
      rw [hallowed, List.filterMap_cons_some hallowed]
      rfl

/-- Without the check every host is allowed, and else those that are listed. -/
theorem fromCli_cases (authority : String → Option (String × Option Nat)) (allowHost : Option (List String)) :
    Unchecked allowHost ∧ HostAllowList.fromCli authority allowHost = .any ∨
      ¬ Unchecked allowHost ∧ HostAllowList.fromCli authority allowHost =
        .restricted ((allowHost.getD []).filterMap (parseAllowedAuthority authority)) := by
  rcases allowHost with _ | values
  · refine .inr ⟨?_, rfl⟩
    rintro ⟨values, ⟨⟩, -⟩
  have hblank : values.filterMap (parseAllowedAuthority authority) = [] ↔ ∀ value ∈ values, trimText value = "" := by
    rw [List.filterMap_eq_nil_iff]
    exact forall₂_congr fun value _ => parseAllowedAuthority_eq_none
  have hunchecked : Unchecked (some values) ↔
      (∃ value ∈ values, trimText value = "*") ∨ values.filterMap (parseAllowedAuthority authority) = [] := by
    rw [hblank]
    constructor
    · rintro ⟨_, ⟨⟩, h⟩
      exact h
    · intro h
      exact ⟨values, rfl, h⟩
  rw [hunchecked, Option.getD_some]
  simp only [HostAllowList.fromCli, allowedAuthorities_eq]
  by_cases hstar : ∃ value ∈ values, trimText value = "*"
  · rw [if_pos hstar]
    exact .inl ⟨.inl hstar, rfl⟩
  rw [if_neg hstar, or_iff_right hstar]
  rcases values.filterMap (parseAllowedAuthority authority) with _ | ⟨a, as⟩
  · exact .inl ⟨rfl, rfl⟩
  · exact .inr ⟨List.cons_ne_nil a as, rfl⟩

theorem restricted_contains {host : NormalizedAuthority} : (HostAllowList.restricted
    ((allowHost.getD []).filterMap (parseAllowedAuthority authority))).contains host = true ↔
      Listed authority allowHost host := by
  unfold HostAllowList.contains Listed
  simp only [List.any_eq_true, List.mem_filterMap, Bool.and_eq_true, decide_eq_true_eq]
  constructor
  · rintro ⟨allowed, ⟨value, hvalue, hparse⟩, hhost, hport⟩
    cases allowHost with
    | none => cases hvalue
    | some values =>
      refine ⟨values, rfl, value, hvalue, allowed, hparse, hhost, ?_⟩
      cases hallowed : allowed.port with
      | none => exact .inl rfl
      | some port =>
        rw [hallowed] at hport
        exact .inr (of_decide_eq_true hport)
  · rintro ⟨values, rfl, value, hvalue, allowed, hparse, hhost, hport⟩
    refine ⟨allowed, ⟨value, hvalue, hparse⟩, hhost, ?_⟩
    rcases hport with hport | hport
    · rw [hport]
    · cases hallowed : allowed.port with
      | none => rfl
      | some port => exact decide_eq_true (hport.trans hallowed)

theorem hostAllowedByBind_iff (policy : HttpAccessPolicy) (host : NormalizedAuthority) :
    policy.hostAllowedByBind host = true ↔ Bound policy.bindAddr host := by
  have hport : portMatches host.port policy.bindAddr.port = true ↔
      host.port = none ∨ host.port = some policy.bindAddr.port := by
    unfold portMatches
    cases host.port <;> simp
  unfold HttpAccessPolicy.hostAllowedByBind Bound
  rw [← hport]
  cases portMatches host.port policy.bindAddr.port with
  | false => simp
  | true =>
    simp only [true_and]
    by_cases hname : host.host = "localhost"
    · have hlocal : parseIpAddr host.host.toList = none := by rw [hname]; rfl
      simp only [hlocal, reduceCtorEq, false_and, exists_false, or_false]
      simp [hname]
    cases hip : parseIpAddr host.host.toList with
    | none => simp [hname]
    | some ip =>
      cases hany : policy.bindAddr.ip.isUnspecified with
      | true => simp [hname]
      | false =>
        by_cases hloop : policy.bindAddr.ip.isLoopback = true
        · have hself : ip = policy.bindAddr.ip → ip.isLoopback = true := by
            rintro rfl
            exact hloop
          simp [hname, hloop, or_iff_left_of_imp hself]
        · simp [hname, hloop]

theorem validateOrigin_iff (policy : HttpAccessPolicy) (h : policy.allowedOrigins = cleanAllowlist allowOrigin) :
    policy.validateOrigin headers = .ok () ↔ OriginListed allowOrigin headers := by
  have hmem (origin : String) : origin ∈ policy.allowedOrigins ↔
      origin ≠ "" ∧ ∃ value ∈ allowOrigin, trimText value = origin := by
    rw [h, cleanAllowlist, List.mem_filter, List.mem_map, and_comm, decide_eq_true_eq]
  unfold HttpAccessPolicy.validateOrigin OriginListed
  rcases headers.origin with _ | _ | origin
  · exact iff_of_true rfl (.inl rfl)
  · simp
  · simp only [reduceCtorEq, false_or, Option.some.injEq, exists_eq_left', ← hmem]
    split
    · rename_i hin
      exact iff_of_true rfl hin
    · rename_i hin
      exact iff_of_false (by rintro ⟨⟩) hin

theorem parseHostHeader_eq_ok {host : NormalizedAuthority} :
    parseHostHeader authority headers = .ok host ↔ Names authority headers host := by
  unfold parseHostHeader Names
  rcases headers.host with _ | _ | text
  · simp
  · simp
  · simp only [Option.some.injEq, exists_and_left, exists_eq_left']
    rcases authority text with _ | ⟨name, port⟩
    · simp
    · simp only [Except.ok.injEq, Option.some.injEq, Prod.mk.injEq]
      constructor
      · rintro rfl
        exact ⟨name, port, ⟨rfl, rfl⟩, rfl⟩
      · rintro ⟨_, _, ⟨rfl, rfl⟩, rfl⟩
        rfl

theorem validateHost_eq_ok {policy : HttpAccessPolicy} : policy.validateHost authority headers = .ok () ↔
    ∃ host, parseHostHeader authority headers = .ok host ∧
      (policy.hostCheckDisabled = true ∨ policy.hostAllowedByBind host = true ∨
        policy.allowedHosts.contains host = true) := by
  unfold HttpAccessPolicy.validateHost
  cases parseHostHeader authority headers with
  | error e => simp [bind, Except.bind]
  | ok host =>
    simp only [bind, Except.bind, Except.ok.injEq, exists_eq_left']
    cases policy.hostCheckDisabled <;> cases policy.hostAllowedByBind host <;>
      cases policy.allowedHosts.contains host <;> simp [pure, Except.pure, throw, throwThe, MonadExceptOf.throw]

theorem validateHost_iff (bindAddr : SocketAddr) (allowOrigin : List String) :
    (HttpAccessPolicy.fromCli authority bindAddr allowOrigin allowHost).validateHost authority headers = .ok () ↔
      ∃ host, Names authority headers host ∧
        (Unchecked allowHost ∨ Bound bindAddr host ∨ Listed authority allowHost host) := by
  rw [validateHost_eq_ok]
  refine exists_congr fun host => and_congr parseHostHeader_eq_ok ?_
  rw [hostAllowedByBind_iff]
  show decide (HostAllowList.fromCli authority allowHost = .any) = true ∨ Bound bindAddr host ∨
    (HostAllowList.fromCli authority allowHost).contains host = true ↔ _
  rw [decide_eq_true_eq]
  rcases fromCli_cases authority allowHost with ⟨hoff, hany⟩ | ⟨hon, hrestricted⟩
  · exact iff_of_true (.inl hany) (.inl hoff)
  · rw [hrestricted, restricted_contains, or_iff_right hon, or_iff_right]
    rintro ⟨⟩

/-- The answers to a request that is malformed or forbidden. -/
def AccessResponse.Refusal (response : AccessResponse) : Prop := response.status = 400 ∨ response.status = 403

theorem validateOrigin_refusal {policy : HttpAccessPolicy} {response : AccessResponse}
    (h : policy.validateOrigin headers = .error response) : response.Refusal := by
  unfold HttpAccessPolicy.validateOrigin at h
  split at h
  · cases h
  · cases h
    exact .inl rfl
  · split at h <;> cases h
    exact .inr rfl

theorem parseHostHeader_refusal {response : AccessResponse}
    (h : parseHostHeader authority headers = .error response) : response.Refusal := by
  unfold parseHostHeader at h
  left
  split at h
  · cases h
    rfl
  · cases h
    rfl
  · split at h <;> cases h
    rfl

theorem validateHost_refusal {policy : HttpAccessPolicy} {response : AccessResponse}
    (h : policy.validateHost authority headers = .error response) : response.Refusal := by
  unfold HttpAccessPolicy.validateHost at h
  cases hparse : parseHostHeader authority headers with
  | error e =>
    rw [hparse] at h
    cases h
    exact parseHostHeader_refusal hparse
  | ok host =>
    rw [hparse] at h
    simp only [bind, Except.bind] at h
    split at h
    · cases h
    · split at h <;> cases h
      exact .inr rfl

theorem validate_refusal {policy : HttpAccessPolicy} {response : AccessResponse}
    (h : policy.validate authority headers = .error response) : response.Refusal := by
  unfold HttpAccessPolicy.validate at h
  cases horigin : policy.validateOrigin headers with
  | error e =>
    rw [horigin] at h
    cases h
    exact validateOrigin_refusal horigin
  | ok _ =>
    rw [horigin] at h
    exact validateHost_refusal h

/-- A request is answered by the MCP service, or it is refused and the service is not asked. -/
theorem call_cases {ρ : Type} (policy : HttpAccessPolicy) (inner : Headers → ρ) (headers : Headers) :
    policy.validate authority headers = .ok () ∧ call authority policy inner headers = .inner (inner headers) ∨
      policy.validate authority headers ≠ .ok () ∧ ∃ response, response.Refusal ∧
        call authority policy inner headers = .refused response := by
  unfold call
  cases hvalidate : policy.validate authority headers with
  | ok _ => exact .inl ⟨rfl, rfl⟩
  | error response =>
    refine .inr ⟨?_, response, validate_refusal hvalidate, rfl⟩
    rintro ⟨⟩

theorem validate_iff (bindAddr : SocketAddr) (allowOrigin : List String) :
    (HttpAccessPolicy.fromCli authority bindAddr allowOrigin allowHost).validate authority headers = .ok () ↔
      OriginListed allowOrigin headers ∧ ∃ host, Names authority headers host ∧
        (Unchecked allowHost ∨ Bound bindAddr host ∨ Listed authority allowHost host) := by
  rw [← validateHost_iff bindAddr allowOrigin,
    ← validateOrigin_iff (.fromCli authority bindAddr allowOrigin allowHost) rfl]
  unfold HttpAccessPolicy.validate
  cases HttpAccessPolicy.validateOrigin (.fromCli authority bindAddr allowOrigin allowHost) headers with
  | ok _ => simp [bind, Except.bind]
  | error e => simp [bind, Except.bind]

/-- A request reaches the MCP service if and only if its page, if any, is of a listed origin and its host is the
server's own, or a listed one, or not checked. Any other request is refused, with the service not asked. -/
theorem request_served_iff {ρ : Type} (authority : String → Option (String × Option Nat)) (bindAddr : SocketAddr)
    (allowOrigin : List String) (allowHost : Option (List String)) (inner : Headers → ρ) (headers : Headers) :
    let served := call authority (.fromCli authority bindAddr allowOrigin allowHost) inner headers
    (served = .inner (inner headers) ↔
      OriginListed allowOrigin headers ∧ ∃ host, Names authority headers host ∧
        (Unchecked allowHost ∨ Bound bindAddr host ∨ Listed authority allowHost host)) ∧
    (served = .inner (inner headers) ∨ ∃ response, response.Refusal ∧ served = .refused response) := by
  intro served
  rw [← validate_iff bindAddr allowOrigin]
  rcases call_cases (.fromCli authority bindAddr allowOrigin allowHost) inner headers with
    ⟨hok, hserved⟩ | ⟨hbad, response, hstatus, hserved⟩
  · exact ⟨iff_of_true hserved hok, .inl hserved⟩
  · refine ⟨iff_of_false ?_ hbad, .inr ⟨response, hstatus, hserved⟩⟩
    intro h
    cases hserved.symm.trans h

/-! ### Names of other hosts -/

/-- A name that is not this server's: one that has to be looked up, another port, or from outside an address of other
machines when the server listens to this machine alone. -/
def Foreign (bindAddr : SocketAddr) (host : NormalizedAuthority) : Prop :=
  host.host ≠ "localhost" ∧
    ((∃ c ∈ host.host.toList, ¬ IpAddr.IpChar c) ∨
      bindAddr.ip.isLoopback = true ∧ ∀ ip, parseIpAddr host.host.toList = some ip → ip.isLoopback = false) ∨
  ∃ port, host.port = some port ∧ port ≠ bindAddr.port

theorem IpAddr.not_unspecified_of_loopback {ip : IpAddr} (h : ip.isLoopback = true) : ip.isUnspecified = false := by
  cases ip with
  | v4 a b c d =>
    have ha : a = 127 := of_decide_eq_true h
    simp [IpAddr.isUnspecified, ha]
  | v6 groups =>
    have hgroups := of_decide_eq_true h
    simp [IpAddr.isUnspecified, hgroups]

theorem Foreign.not_bound {host : NormalizedAuthority} (h : Foreign bindAddr host) : ¬ Bound bindAddr host := by
  rintro ⟨hport, hname⟩
  rcases h with ⟨hlocal, hforeign⟩ | ⟨port, hsome, hne⟩
  · rcases hname with ⟨hname, -⟩ | ⟨ip, hparse, hbind⟩
    · exact hlocal hname
    rcases hforeign with ⟨c, hc, hchar⟩ | ⟨hloop, hother⟩
    · exact hchar (parseIpAddr_chars hparse c hc)
    · have hip := hother ip hparse
      rcases hbind with hany | ⟨-, hself⟩ | rfl
      · rw [IpAddr.not_unspecified_of_loopback hloop] at hany
        cases hany
      · cases hip.symm.trans hself
      · cases hip.symm.trans hloop
  · rcases hport with hport | hport
    · cases hport.symm.trans hsome
    · exact hne (Option.some.inj (hsome.symm.trans hport))

/-- While the host is checked, a request under a foreign name that is not listed is refused, whatever else it says. So
is the request of a page that has rebound its own name to this machine. -/
theorem foreign_host_refused {ρ : Type} (authority : String → Option (String × Option Nat)) (bindAddr : SocketAddr)
    (allowOrigin : List String) (inner : Headers → ρ) {host : NormalizedAuthority} (hcheck : ¬ Unchecked allowHost)
    (hnames : Names authority headers host) (hlisted : ¬ Listed authority allowHost host)
    (hforeign : Foreign bindAddr host) :
    ∃ response, response.Refusal ∧
      call authority (.fromCli authority bindAddr allowOrigin allowHost) inner headers = .refused response := by
  rcases call_cases (.fromCli authority bindAddr allowOrigin allowHost) inner headers with
    ⟨hok, -⟩ | ⟨-, hrefused⟩
  · obtain ⟨-, other, hother, hallowed⟩ := (validate_iff bindAddr allowOrigin).1 hok
    have heq := (parseHostHeader_eq_ok.2 hnames).symm.trans (parseHostHeader_eq_ok.2 hother)
    obtain rfl := Except.ok.inj heq
    rcases hallowed with h | h | h
    · exact absurd h hcheck
    · exact absurd h hforeign.not_bound
    · exact absurd h hlisted
  · exact hrefused

/-- The server at its default address. -/
def localServer : SocketAddr := ⟨.v4 127 0 0 1, 8765, "127.0.0.1:8765"⟩

/-- A name without a port. -/
def nameOnly (text : String) : Option (String × Option Nat) := some (text, none)

theorem foreign_host_refused_rebound :
    ∃ response, response.Refusal ∧
      call nameOnly (.fromCli nameOnly localServer ["http://localhost", "http://127.0.0.1"] none) (fun _ => ())
        ⟨none, some (some "rebound.example")⟩ = .refused response := by
  have hnames : Names nameOnly ⟨none, some (some "rebound.example")⟩ ⟨"rebound.example", none⟩ :=
    ⟨"rebound.example", "rebound.example", none, rfl, rfl, rfl⟩
  refine foreign_host_refused nameOnly localServer _ _ ?_ hnames ?_ ?_
  · rintro ⟨values, ⟨⟩, -⟩
  · rintro ⟨values, ⟨⟩, -⟩
  · refine .inl ⟨by decide, .inl ⟨'r', List.mem_cons_self, ?_⟩⟩
    unfold IpAddr.IpChar
    decide

end IdaRs.HttpAccess
