import Mathlib.Data.List.TakeDrop
import Mathlib.Data.List.TakeWhile

namespace Memos
namespace Service
namespace Outbound

/-!
# Outbound requests

Webhooks and link previews make requests to hosts that users name.  Both paths
replace the dialer of their client: the dialer looks the host up, judges the
addresses and connects.  The resolver may answer every lookup as it likes, and
a server may redirect a request anywhere.
-/

/-! ## Addresses -/

inductive IP where
  | v4 (bits : BitVec 32)
  | v6 (bits : BitVec 128)
deriving DecidableEq

/-- The octet of an address at an index, most significant first. -/
def IP.octet : IP -> Nat -> BitVec 8
  | .v4 bits, index => bits.extractLsb' (24 - 8 * index) 8
  | .v6 bits, index => bits.extractLsb' (120 - 8 * index) 8

/-- An address as a resolver answers it, with its IPv6 zone. -/
structure IPAddr where
  ip : IP
  zone : Option String := none
deriving DecidableEq

/-- The host of a URL: the text of an address, or a name for the resolver. -/
inductive Host where
  | literal (address : IPAddr)
  | name (text : String)
deriving DecidableEq

/-- `net.ParseIP` refuses a zone. -/
def parseIP : Host -> Option IP
  | .literal ⟨ip, none⟩ => some ip
  | _ => none

inductive IPNet where
  | v4 (base : BitVec 32) (ones : Nat)
  | v6 (base : BitVec 128) (ones : Nat)

/-- `To4`: an IPv6 address that stands for an IPv4 address is that address. -/
def IP.to4 : IP -> IP
  | .v4 bits => .v4 bits
  | .v6 bits => if bits >>> 32 = 0xffff then .v4 (bits.extractLsb' 0 32) else .v6 bits

def IPNet.contains (network : IPNet) (ip : IP) : Bool :=
  match network, ip.to4 with
  | .v4 base ones, .v4 bits => bits >>> (32 - ones) == base >>> (32 - ones)
  | .v6 base ones, .v6 bits => bits >>> (128 - ones) == base >>> (128 - ones)
  | _, _ => false

/-- `reservedNetworks`, the parsed `reservedCIDRs`. -/
def reservedNetworks : List IPNet :=
  [.v4 0x7f000000 8,      -- 127.0.0.0/8
    .v4 0x0a000000 8,     -- 10.0.0.0/8
    .v4 0xac100000 12,    -- 172.16.0.0/12
    .v4 0xc0a80000 16,    -- 192.168.0.0/16
    .v4 0xa9fe0000 16,    -- 169.254.0.0/16
    .v6 1 128,            -- ::1/128
    .v6 0xfc000000000000000000000000000000 7,     -- fc00::/7
    .v6 0xfe800000000000000000000000000000 10]    -- fe80::/10

/-- The predicate of the webhook path. -/
def isReservedIP (allowPrivateIPs : Bool) (ip : IP) : Bool :=
  if allowPrivateIPs then false
  else reservedNetworks.any fun network => network.contains ip

def IP.isLoopback (ip : IP) : Bool :=
  match ip.to4 with
  | ip@(.v4 _) => ip.octet 0 == 127
  | .v6 bits => bits == 1

def IP.isPrivate (ip : IP) : Bool :=
  match ip.to4 with
  | ip@(.v4 _) =>
      ip.octet 0 == 10
        || (ip.octet 0 == 172 && ip.octet 1 &&& 0xf0 == 16)
        || (ip.octet 0 == 192 && ip.octet 1 == 168)
  | ip@(.v6 _) => ip.octet 0 &&& 0xfe == 0xfc

def IP.isLinkLocalUnicast (ip : IP) : Bool :=
  match ip.to4 with
  | ip@(.v4 _) => ip.octet 0 == 169 && ip.octet 1 == 254
  | ip@(.v6 _) => ip.octet 0 == 0xfe && ip.octet 1 &&& 0xc0 == 0x80

def IP.isUnspecified (ip : IP) : Bool :=
  match ip.to4 with
  | .v4 bits => bits == 0
  | .v6 bits => bits == 0

/-- The predicate of the link preview path. -/
def isInternalIP (ip : IP) : Bool :=
  ip.isLoopback || ip.isPrivate || ip.isLinkLocalUnicast || ip.isUnspecified

theorem octet_private (octet : BitVec 8) : (octet &&& 0xf0 = 16) ↔ octet >>> 4 = 1 := by
  revert octet; decide

theorem octet_local (octet : BitVec 8) : (octet &&& 0xfe = 0xfc) ↔ octet >>> 1 = 126 := by
  revert octet; decide

theorem octet_link (octet : BitVec 8) : (octet &&& 0xc0 = 0x80) ↔ octet >>> 6 = 2 := by
  revert octet; decide

/-- The two predicates differ on the unspecified addresses only. -/
theorem isInternalIP_eq (ip : IP) :
    isInternalIP ip = (isReservedIP false ip || ip.isUnspecified) := by
  rw [Bool.eq_iff_iff]
  simp only [isInternalIP, isReservedIP, reservedNetworks, IP.isLoopback, IP.isPrivate,
    IP.isLinkLocalUnicast, IP.isUnspecified, IPNet.contains, List.any_cons, List.any_nil,
    Bool.or_eq_true, Bool.false_eq_true, if_false]
  cases ip.to4 with
  | v4 bits =>
      simp only [IP.octet, beq_iff_eq, octet_private, Bool.or_eq_true, Bool.and_eq_true]
      simp only [← BitVec.toNat_inj, BitVec.extractLsb'_toNat, BitVec.toNat_ushiftRight,
        Nat.shiftRight_eq_div_pow]
      simp
      omega
  | v6 bits =>
      simp only [IP.octet, beq_iff_eq, octet_local, octet_link, Bool.and_eq_true]
      simp only [← BitVec.toNat_inj, BitVec.extractLsb'_toNat, BitVec.toNat_ushiftRight,
        Nat.shiftRight_eq_div_pow]
      simp
      omega

/-- The loopback address is refused in its mapped form as well. -/
example : isReservedIP false (.v6 0xffff7f000001) = true := by decide

/-! ## The network -/

/-- The answers to the lookups of a request, one after the other. -/
abbrev Resolver := Nat -> String -> Option (List IPAddr)

/-- A host that is an address needs no resolver. -/
def lookup (resolver : Resolver) (number : Nat) : Host -> Option (List IPAddr)
  | .literal address => some [address]
  | .name text => resolver number text

/-- What happens to a hop: the addresses that take its connections, and whether
an idle connection may serve it. -/
structure Attempt where
  opens : IPAddr -> Bool
  reuses : Bool

/-- A dial: the addresses that the predicate has accepted, the connections that
were opened then, and why there is none. -/
structure Dial where
  accepted : List IP := []
  opened : List IPAddr := []
  error : Option String := none
deriving DecidableEq

/-- `net.Dialer`: it looks the host up and may try the addresses side by side. -/
def dialContext (resolver : Resolver) (attempt : Attempt) (number : Nat) (host : Host) :
    List IPAddr :=
  match lookup resolver number host with
  | none => []
  | some addresses => addresses.filter attempt.opens

def unlessConnected (error : String) : List IPAddr -> Option String
  | [] => some error
  | _ => none

/-! ## The dialers -/

/-- The addresses that a loop accepts before it meets one that it refuses. -/
def acceptedBefore (refused : IP -> Bool) (ips : List IP) : List IP :=
  ips.takeWhile fun ip => !refused ip

/-- The addresses of an answer that the webhook dialer judges: the
others are skipped. -/
def judged (addresses : List IPAddr) : List IP :=
  addresses.filterMap fun address => parseIP (.literal address)

/-- The dialer of the webhook client, and the number of the next lookup. -/
def safeDialContext (allowPrivateIPs : Bool) (resolver : Resolver) (attempt : Attempt)
    (number : Nat) (host : Host) : Dial × Nat :=
  match lookup resolver number host with
  | none => ({ error := some "webhook: failed to resolve host" }, number + 1)
  | some addresses =>
      let accepted := acceptedBefore (isReservedIP allowPrivateIPs) (judged addresses)
      if (judged addresses).any (isReservedIP allowPrivateIPs) then
        ({ accepted := accepted
           error := some "webhook: connection to reserved/private IP address is not allowed" },
          number + 1)
      else
        -- the dialer is given the host again, not the addresses
        let opened := dialContext resolver attempt (number + 1) host
        ({ accepted := accepted, opened := opened, error := unlessConnected "dial" opened }, number + 2)

/-- The addresses of a host, if all of them may be dialed. -/
def resolveAllowedIPs (resolver : Resolver) (number : Nat) (host : Host) : Except String (List IP) :=
  match parseIP host with
  | some ip => if isInternalIP ip then .error "internal IP addresses are not allowed" else .ok [ip]
  | none =>
      match lookup resolver number host with
      | none => .error "failed to resolve hostname"
      | some addresses =>
          let ips := addresses.map fun address => address.ip
          if ips.any isInternalIP then .error "internal IP addresses are not allowed"
          else if ips.isEmpty then .error "hostname resolved to no addresses"
          else .ok ips

/-- Each address is dialed as an address, until one answers. -/
def dialFirst (resolver : Resolver) (attempt : Attempt) (number : Nat) : List IP -> List IPAddr
  | [] => []
  | ip :: rest =>
      match dialContext resolver attempt number (.literal ⟨ip, none⟩) with
      | [] => dialFirst resolver attempt number rest
      | opened => opened

/-- The dialer of the link preview client. -/
def secureDialContext (resolver : Resolver) (attempt : Attempt) (number : Nat) (host : Host) :
    Dial × Nat :=
  match resolveAllowedIPs resolver number host with
  | .error error => ({ error := some error }, number + 1)
  | .ok ips =>
      let opened := dialFirst resolver attempt (number + 1) ips
      ({ accepted := acceptedBefore isInternalIP ips
         opened := opened
         error := unlessConnected "dial" opened }, number + 1)

/-! ## The clients -/

structure Url where
  scheme : String
  hostname : Host
deriving DecidableEq

def Url.isHttp (url : Url) : Bool := url.scheme == "http" || url.scheme == "https"

/-- What the client itself refuses to send. -/
def Url.sendable (url : Url) : Bool := url.isHttp && url.hostname != .name ""

/-- The text of a URL where it parses. -/
def validateURL : Option Url -> Except String Unit
  | none => .error "invalid URL format"
  | some url =>
      if !url.isHttp then .error "only http/https protocols are allowed"
      else if url.hostname == .name "" then .error "empty hostname"
      else match parseIP url.hostname with
        | some ip => if isInternalIP ip then .error "internal IP addresses are not allowed" else .ok ()
        | none => .ok ()

inductive Response where
  | redirect (location : Option Url)
  | other

/-- A client's dialer and the redirects that it follows. -/
structure Client where
  dial : Attempt -> Nat -> Host -> Dial × Nat
  checkRedirect : Url -> Except String Unit

/-- Where a response sends the client next. -/
def Client.followed (client : Client) : Response -> Option Url
  | .redirect (some next) => if (client.checkRedirect next).isOk then some next else none
  | _ => none

/-- The dials of a request and of its redirects, at most as many as are left.
A host that has an idle connection need not be dialed again. -/
def Client.send (client : Client) : Nat -> (Nat -> Response) -> (Nat -> Attempt) -> Nat ->
    List Host -> Url -> List Dial
  | 0, _, _, _, _, _ => []
  | left + 1, server, network, number, idle, url =>
      let continueWith := fun number idle =>
        match client.followed (server 0) with
        | none => []
        | some next =>
            client.send left (fun hop => server (hop + 1)) (fun hop => network (hop + 1)) number idle next
      if !url.sendable then []
      else if (network 0).reuses && idle.contains url.hostname then continueWith number idle
      else
        let dialed := client.dial (network 0) number url.hostname
        dialed.1 :: if dialed.1.opened.isEmpty then []
          else continueWith dialed.2 (url.hostname :: idle)

/-- Both clients stop after ten requests. -/
def maxRequests : Nat := 10

def safeClient (allowPrivateIPs : Bool) (resolver : Resolver) : Client where
  dial := safeDialContext allowPrivateIPs resolver
  checkRedirect := fun _ => .ok ()

def httpClient (resolver : Resolver) : Client where
  dial := secureDialContext resolver
  checkRedirect := fun url => validateURL (some url)

/-- The connections of `Post`. -/
def post (allowPrivateIPs : Bool) (resolver : Resolver) (server : Nat -> Response)
    (network : Nat -> Attempt) (idle : List Host) : Option Url -> List Dial
  | none => []
  | some url => (safeClient allowPrivateIPs resolver).send maxRequests server network 0 idle url

/-- The connections of `GetHTMLMeta`. -/
def getHTMLMeta (resolver : Resolver) (server : Nat -> Response) (network : Nat -> Attempt)
    (idle : List Host) (target : Option Url) : List Dial :=
  match validateURL target, target with
  | .ok _, some url => (httpClient resolver).send maxRequests server network 0 idle url
  | _, _ => []

/-- The two ways out of the server. -/
inductive Path where
  | webhook
  | linkMetadata
deriving DecidableEq

def Path.refuses (allowPrivateIPs : Bool) : Path -> IP -> Bool
  | .webhook => isReservedIP allowPrivateIPs
  | .linkMetadata => isInternalIP

def Path.dials (path : Path) (allowPrivateIPs : Bool) (resolver : Resolver)
    (server : Nat -> Response) (network : Nat -> Attempt) (idle : List Host) (target : Option Url) :
    List Dial :=
  match path with
  | .webhook => post allowPrivateIPs resolver server network idle target
  | .linkMetadata => getHTMLMeta resolver server network idle target

/-! ## Guarded connections -/

/-- A connection is opened only to an address that the predicate was evaluated on
before, and accepted. -/
def Guarded (refuses : IP -> Bool) (dials : List Dial) : Prop :=
  forall dial, dial ∈ dials -> forall address, address ∈ dial.opened ->
    address.ip ∈ dial.accepted ∧ refuses address.ip = false

/-- Wherever the webhook dialer looks a host up for a second time, it meets no
address that it has not judged the first time. -/
def AgreeingAnswers (allowPrivateIPs : Bool) (resolver : Resolver) : Nat -> (Nat -> Response) ->
    Nat -> List Host -> Url -> Prop
  | 0, _, _, _, _ => True
  | left + 1, server, number, idle, url =>
      let continued := fun number idle => forall next,
        (safeClient allowPrivateIPs resolver).followed (server 0) = some next ->
          AgreeingAnswers allowPrivateIPs resolver left (fun hop => server (hop + 1)) number idle next
      url.sendable = true ->
        (url.hostname ∈ idle -> continued number idle) ∧
        forall first second, lookup resolver number url.hostname = some first ->
          (judged first).any (isReservedIP allowPrivateIPs) = false ->
          lookup resolver (number + 1) url.hostname = some second ->
          (forall address, address ∈ second -> address.ip ∈ judged first) ∧
            (second ≠ [] -> continued (number + 2) (url.hostname :: idle))

@[simp]
theorem guarded_nil (refuses : IP -> Bool) : Guarded refuses [] := by
  simp [Guarded]

variable {refuses : IP -> Bool} {ips : List IP}

variable {dial : Dial}

theorem guarded_cons {rest : List Dial} :
    Guarded refuses (dial :: rest) ↔ Guarded refuses [dial] ∧ Guarded refuses rest := by
  simp [Guarded]

@[simp]
theorem guarded_unopened (unopened : dial.opened = []) :
    Guarded refuses [dial] := by
  simp [Guarded, unopened]

theorem guarded_judged (recorded : dial.accepted = ips) (accepted : ips.any refuses = false)
    (opened : forall address, address ∈ dial.opened -> address.ip ∈ ips) : Guarded refuses [dial] := by
  intro same member address connected
  rw [List.mem_singleton.mp member] at connected ⊢
  have listed := opened address connected
  exact ⟨recorded ▸ listed, by simpa using List.any_eq_false.mp accepted _ listed⟩

theorem acceptedBefore_eq (accepted : ips.any refuses = false) :
    acceptedBefore refuses ips = ips := by
  rw [acceptedBefore, List.takeWhile_eq_self_iff]
  simpa using accepted

/-! ## Link previews -/

theorem resolveAllowedIPs_eq_ok {resolver : Resolver} {number : Nat} {host : Host}
    (resolved : resolveAllowedIPs resolver number host = .ok ips) : ips.any isInternalIP = false := by
  rw [resolveAllowedIPs] at resolved
  split at resolved
  · split at resolved
    · cases resolved
    case isFalse external =>
      cases resolved
      simpa using external
  · split at resolved
    · cases resolved
    · dsimp only at resolved
      split at resolved
      · cases resolved
      case isFalse external =>
        split at resolved
        · cases resolved
        · cases resolved
          simpa using external

theorem mem_dialFirst {resolver : Resolver} {attempt : Attempt} {number : Nat} {address : IPAddr}
    (opened : address ∈ dialFirst resolver attempt number ips) : address.ip ∈ ips := by
  induction ips with
  | nil => cases opened
  | cons ip rest ih =>
      rw [dialFirst] at opened
      split at opened
      · exact List.mem_cons_of_mem _ (ih opened)
      · have here : address ∈ dialContext resolver attempt number (.literal ⟨ip, none⟩) := opened
        simp only [dialContext, lookup, List.mem_filter, List.mem_singleton] at here
        rw [here.1]
        exact List.mem_cons_self

theorem guarded_secureDialContext (resolver : Resolver) (attempt : Attempt) (number : Nat)
    (host : Host) : Guarded isInternalIP [(secureDialContext resolver attempt number host).1] := by
  rw [secureDialContext]
  split
  · exact guarded_unopened rfl
  case h_2 ips resolved =>
    have external := resolveAllowedIPs_eq_ok resolved
    exact guarded_judged (acceptedBefore_eq external) external fun address opened => mem_dialFirst opened

/-- Guarded dials make guarded requests. -/
theorem guarded_send {client : Client}
    (guarded : forall attempt number host, Guarded refuses [(client.dial attempt number host).1]) (left : Nat)
    (server : Nat -> Response) (network : Nat -> Attempt) (number : Nat) (idle : List Host) (url : Url) :
    Guarded refuses (client.send left server network number idle url) := by
  induction left generalizing server network number idle url with
  | zero => exact guarded_nil refuses
  | succ left ih =>
      rw [Client.send]
      dsimp only
      split
      · exact guarded_nil refuses
      · split
        · split
          · exact guarded_nil refuses
          · apply ih
        · apply guarded_cons.mpr
          refine ⟨guarded _ _ _, ?_⟩
          split
          · exact guarded_nil refuses
          · split
            · exact guarded_nil refuses
            · apply ih

theorem guarded_getHTMLMeta (resolver : Resolver) (server : Nat -> Response)
    (network : Nat -> Attempt) (idle : List Host) (target : Option Url) :
    Guarded isInternalIP (getHTMLMeta resolver server network idle target) := by
  cases target with
  | none => exact guarded_nil isInternalIP
  | some url =>
      have guards : forall attempt number host, Guarded isInternalIP
          [((httpClient resolver).dial attempt number host).1] := guarded_secureDialContext resolver
      unfold getHTMLMeta
      split
      · exact guarded_send guards _ _ _ _ _ _
      · exact guarded_nil isInternalIP

/-! ## Webhooks -/

section Webhooks

variable {allowPrivateIPs : Bool} {resolver : Resolver}

variable {number : Nat} {left : Nat} {server : Nat -> Response} {idle : List Host}

theorem safeDialContext_eq {attempt : Attempt} {host : Host} {first : List IPAddr}
    (looked : lookup resolver number host = some first)
    (accepted : (judged first).any (isReservedIP allowPrivateIPs) = false) :
    (safeDialContext allowPrivateIPs resolver attempt number host).1.accepted = judged first ∧
      (safeDialContext allowPrivateIPs resolver attempt number host).1.opened =
        dialContext resolver attempt (number + 1) host ∧
      (safeDialContext allowPrivateIPs resolver attempt number host).2 = number + 2 := by
  rw [safeDialContext, looked]
  simp [accepted, acceptedBefore_eq accepted]

/-- Connections need a first answer without a reserved address and a second one. -/
theorem opened_safeDialContext {attempt : Attempt} {host : Host}
    (opened : (safeDialContext allowPrivateIPs resolver attempt number host).1.opened ≠ []) :
    Exists fun first => Exists fun second => lookup resolver number host = some first ∧
      (judged first).any (isReservedIP allowPrivateIPs) = false ∧
      lookup resolver (number + 1) host = some second ∧
      (safeDialContext allowPrivateIPs resolver attempt number host).1.opened =
        second.filter attempt.opens := by
  cases looked : lookup resolver number host with
  | none => simp [safeDialContext, looked] at opened
  | some first =>
      cases reserved : (judged first).any (isReservedIP allowPrivateIPs) with
      | true => simp [safeDialContext, looked, reserved] at opened
      | false =>
          have dialed : (safeDialContext allowPrivateIPs resolver attempt number host).1.opened =
              dialContext resolver attempt (number + 1) host := (safeDialContext_eq looked reserved).2.1
          rw [dialed, dialContext] at opened ⊢
          cases again : lookup resolver (number + 1) host with
          | none => simp [again] at opened
          | some second => exact ⟨first, second, rfl, reserved, rfl, by simp⟩

/-- A network whose first attempt is given. -/
def startingWith (attempt : Attempt) (network : Nat -> Attempt) : Nat -> Attempt
  | 0 => attempt
  | hop + 1 => network hop

/-- Every address takes the connection, over a new one. -/
def reachable : Attempt := ⟨fun _ => true, false⟩

variable {client : Client} {network : Nat -> Attempt} {url : Url}

theorem send_idle {url next : Url} (sendable : url.sendable = true) (held : url.hostname ∈ idle)
    (followed : client.followed (server 0) = some next) :
    client.send (left + 1) server (startingWith ⟨fun _ => true, true⟩ network) number idle url =
      client.send left (fun hop => server (hop + 1)) network number idle next := by
  rw [Client.send]
  simp [sendable, held, followed, startingWith]

theorem send_dialed (sendable : url.sendable = true) (fresh : (network 0).reuses = false) :
    client.send (left + 1) server network number idle url =
      (client.dial (network 0) number url.hostname).1 ::
        if (client.dial (network 0) number url.hostname).1.opened.isEmpty then []
        else match client.followed (server 0) with
          | none => []
          | some next => client.send left (fun hop => server (hop + 1)) (fun hop => network (hop + 1))
              (client.dial (network 0) number url.hostname).2 (url.hostname :: idle) next := by
  rw [Client.send]
  simp [sendable, fresh]

theorem send_next {url next : Url} (sendable : url.sendable = true) (fresh : (network 0).reuses = false)
    (opened : (client.dial (network 0) number url.hostname).1.opened ≠ [])
    (followed : client.followed (server 0) = some next) :
    client.send (left + 1) server network number idle url =
      (client.dial (network 0) number url.hostname).1 ::
        client.send left (fun hop => server (hop + 1)) (fun hop => network (hop + 1))
          (client.dial (network 0) number url.hostname).2 (url.hostname :: idle) next := by
  rw [send_dialed sendable fresh, followed]
  simp [opened]

theorem startingWith_fresh (network : Nat -> Attempt) :
    (startingWith reachable network 0).reuses = false := by
  simp [startingWith, reachable]

/-- What is guarded on every network agrees. -/
theorem agreeing_of_guarded (guarded : forall network, Guarded (isReservedIP allowPrivateIPs)
      ((safeClient allowPrivateIPs resolver).send left server network number idle url)) :
    AgreeingAnswers allowPrivateIPs resolver left server number idle url := by
  induction left generalizing server number idle url with
  | zero => exact True.intro
  | succ left ih =>
      intro sendable
      refine ⟨fun held next followed => ih fun network => ?_,
        fun first second looked accepted again => ?_⟩
      · rw [← send_idle sendable held followed]
        exact guarded _
      · rcases safeDialContext_eq looked accepted with ⟨judgedFirst, openedSecond, numbers⟩
        have opened : (safeDialContext allowPrivateIPs resolver reachable number
            url.hostname).1.opened = second := by
          rw [openedSecond, dialContext, again]
          simp [reachable]
        constructor
        · intro address member
          have dialed := send_dialed sendable (startingWith_fresh fun _ => reachable) ▸ guarded _
          have checked := dialed _ List.mem_cons_self address (opened ▸ member)
          exact judgedFirst ▸ checked.1
        · intro answered next followed
          apply ih
          intro network
          have continues : (safeDialContext allowPrivateIPs resolver reachable number
              url.hostname).1.opened ≠ [] := opened ▸ answered
          have dialed := send_next sendable (startingWith_fresh network) continues followed ▸ guarded _
          rw [← numbers]
          exact (guarded_cons.mp dialed).2

/-- What agrees is guarded on every network. -/
theorem guarded_of_agreeing (agreeing : AgreeingAnswers allowPrivateIPs resolver left server number idle url)
    (network : Nat -> Attempt) :
    Guarded (isReservedIP allowPrivateIPs)
      ((safeClient allowPrivateIPs resolver).send left server network number idle url) := by
  induction left generalizing server number idle url network with
  | zero => exact guarded_nil _
  | succ left ih =>
      cases sendable : url.sendable with
      | false => simp [Client.send, sendable]
      | true =>
          rcases agreeing sendable with ⟨whenIdle, whenDialed⟩
          rw [Client.send]
          dsimp only
          split
          · exact guarded_nil _
          · split
            case isTrue held =>
              have member : url.hostname ∈ idle := by
                simp only [Bool.and_eq_true, List.contains_iff_mem] at held
                exact held.2
              split
              · exact guarded_nil _
              · apply ih
                apply whenIdle member
                assumption
            · apply guarded_cons.mpr
              by_cases opened : (safeDialContext allowPrivateIPs resolver (network 0) number
                  url.hostname).1.opened = []
              · refine ⟨guarded_unopened opened, ?_⟩
                split
                · exact guarded_nil _
                case isFalse connected => exact absurd (List.isEmpty_iff.mpr opened) connected
              · rcases opened_safeDialContext opened with
                  ⟨first, second, looked, accepted, again, connections⟩
                rcases whenDialed first second looked accepted again with ⟨agree, continued⟩
                rcases safeDialContext_eq looked accepted with ⟨judgedFirst, _, numbers⟩
                constructor
                · exact guarded_judged judgedFirst accepted fun address member =>
                    agree address (List.mem_filter.mp (connections ▸ member)).1
                · split
                  · exact guarded_nil _
                  · split
                    · exact guarded_nil _
                    · apply ih
                      have answered : second ≠ [] := by
                        rintro rfl
                        exact opened connections
                      rw [← numbers] at continued
                      apply continued answered
                      assumption

end Webhooks

/-- Link previews connect to accepted addresses only.  Webhooks do on every
network, exactly if private targets are allowed or the resolver agrees with
itself. -/
theorem connections_guarded_iff (path : Path) (allowPrivateIPs : Bool) (resolver : Resolver)
    (server : Nat -> Response) (idle : List Host) (target : Option Url) :
    (forall network, (path = .webhook ∧ allowPrivateIPs = true) ∨
      Guarded (path.refuses allowPrivateIPs)
        (path.dials allowPrivateIPs resolver server network idle target)) ↔
      (path = .webhook -> allowPrivateIPs = false -> forall url, target = some url ->
        AgreeingAnswers false resolver maxRequests server 0 idle url) := by
  cases path with
  | linkMetadata =>
      constructor
      · intro _ webhook
        cases webhook
      · exact fun _ network => Or.inr (guarded_getHTMLMeta resolver server network idle target)
  | webhook =>
      cases allowPrivateIPs with
      | true => simp
      | false =>
          cases target with
          | none => simp [Path.dials, post]
          | some url =>
              constructor
              · intro guarded _ _ _ same
                cases same
                apply agreeing_of_guarded
                exact fun network => (guarded network).resolve_left (by simp)
              · intro agreeing network
                exact Or.inr (guarded_of_agreeing (agreeing rfl rfl url rfl) network)

/-- A name that is public when it is judged and loopback when it is dialed. -/
def rebindingResolver : Resolver := fun number _ =>
  some [⟨if number = 0 then .v4 0x5db8d822 else .v4 0x7f000001, none⟩]

/-- A webhook of that name reaches the loopback address. -/
theorem webhook_reaches_loopback :
    ¬ Guarded (isReservedIP false) (Path.webhook.dials false rebindingResolver (fun _ => .other)
      (fun _ => reachable) [] (some ⟨"http", .name "rebind.example"⟩)) := by
  intro guarded
  have accepted := (guarded ⟨[.v4 0x5db8d822], [⟨.v4 0x7f000001, none⟩], none⟩ (by decide)
    ⟨.v4 0x7f000001, none⟩ (by decide)).2
  revert accepted
  decide

end Outbound
end Service
end Memos
