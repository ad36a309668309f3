import Mathlib.Algebra.Group.Int.Defs
import Sysmon.Lib.Run

/-!
# The clients of the daemon

`srvclient.c` and `aggregator.c`: who is on the list of clients, which commands each may give, and which descriptors are
theirs. A client comes in over the listening socket, or it is the link the daemon itself has made to the aggregator. A
descriptor that is closed may be the number of the next connection, so none may be closed twice, and the session that
`tlsio.c` keeps for a number must be gone with it.
-/

namespace Sysmon.Clients

abbrev Line := List Char

abbrev Fd := Nat

/-- `struct clientstatus`, without what only replies use. Kept besides: whether it is the link to the aggregator, and the
lines it has sent, each with the authkey of that time. -/
structure Client where
  filedes : Option Fd
  lastactivity : Int
  authlvl : Nat
  xml : Bool
  outageLog : Bool
  adopted : Bool
  said : List (Line × Option Line)
  deriving DecidableEq, Repr

/-! ### Commands -/

inductive Command where
  | stat
  | uptime
  | nfd
  | abort
  | killit
  | quit
  | snmpd
  | debug
  | configRollback
  | configRevert
  | configPut
  | configGen
  | configGet
  | configRefused
  | conf
  | expiredns
  | printq
  | vers
  | mode
  | noop
  | showobj
  | trace
  | site
  | traps
  | auth
  | upd
  | ack
  | unack
  | get
  | unknown
  deriving DecidableEq, Repr

/-- The tests of `do_service`, in their order: what the line begins with, and the level above which it is taken. -/
def commands : List (String × Option Nat × Command) :=
  [("STAT", none, .stat), ("UPTIME", none, .uptime), ("NFD", some 1, .nfd), ("ABORT", some 1, .abort),
    ("KILLIT", some 1, .killit), ("QUIT", none, .quit), ("SNMPD", some 1, .snmpd), ("DEBUG", some 1, .debug),
    ("CONFIG-ROLLBACK", some 1, .configRollback), ("CONFIG-REVERT", some 1, .configRevert),
    ("CONFIG-PUT ", some 1, .configPut), ("CONFIG-GEN", some 1, .configGen), ("CONFIG-GET", some 1, .configGet),
    ("CONFIG-", none, .configRefused), ("CONF", none, .conf), ("EXPIREDNS", some 1, .expiredns), ("PRINTQ", some 1, .printq),
    ("VERS", none, .vers), ("MODE", none, .mode), ("NOOP", none, .noop), ("SHOWOBJ ", none, .showobj),
    ("TRACE ", none, .trace), ("SITE", none, .site), ("TRAPS", none, .traps), ("AUTH", none, .auth), ("UPD ", none, .upd),
    ("ACK ", none, .ack), ("UNACK ", none, .unack), ("GET ", none, .get)]

/-- A test of `do_service`. -/
def taken (buff : Line) (authlvl : Nat) (entry : String × Option Nat × Command) : Bool :=
  decide (entry.1.toList <+: buff) && (entry.2.1.all (· < authlvl))

def dispatch (buff : Line) (authlvl : Nat) : Command :=
  ((commands.find? (taken buff authlvl)).map (·.2.2)).getD .unknown

/-- The commands that change the daemon, its config or what it says of an object, or show its descriptors, its queue or
the credentials of its objects. `TRACE` is open to everyone, and so are `SHOWOBJ` and `TRAPS`, which leave the credentials
out for a client of the lowest level. -/
def Command.privileged : Command → Bool
  | .nfd | .abort | .killit | .snmpd | .debug | .configRollback | .configRevert | .configPut | .configGen | .configGet
  | .conf | .expiredns | .printq | .upd | .ack | .unack => true
  | _ => false

/-- `send_conf`, `do_upd`, `do_ack` and `do_unack` look at the level themselves. -/
def Command.permitted (command : Command) (authlvl : Nat) : Bool :=
  match command with
  | .conf | .upd | .ack | .unack => 0 < authlvl
  | _ => true

/-- The commands that give a client up whose answer cannot be written: `send_stat`, `send_traps`, and where the line is not
understood. What the others write is written for better or worse. -/
def Command.closesUnwritten : Command → Bool
  | .stat | .traps | .unknown => true
  | _ => false

/-! ### The daemon -/

/-- What the daemon holds. `others` are the descriptors of checks and files, `opened` all those the kernel has given out.
Kept besides: whether a descriptor was closed that was not open, who has had which command carried out, and when the calls to
the aggregator failed since the last that went well. -/
structure Daemon where
  listener : Option Fd
  clients : List Client
  opened : List Fd
  others : List Fd
  tls : List Fd
  authkey : Option Line
  aggregator : Bool
  aggFd : Option Fd
  nextTry : Int
  backoff : Int
  fault : Bool
  carriedOut : List (Command × Client)
  failed : List Int
  deriving DecidableEq, Repr

def inactivetime : Int := 300

/-- A descriptor from the kernel. -/
def Daemon.open (s : Daemon) (fd : Fd) : Daemon := { s with opened := fd :: s.opened }

/-- `tls_register`, with room for so many. -/
def Daemon.tlsRegister (s : Daemon) (fd : Fd) : Daemon := if s.tls.length < 8 then { s with tls := fd :: s.tls } else s

def Daemon.tlsForget (s : Daemon) (fd : Fd) : Daemon := { s with tls := s.tls.erase fd }

/-- `tls_disconnect`. -/
def Daemon.tlsDisconnect (s : Daemon) (fd : Fd) : Daemon :=
  let s := s.tlsForget fd
  { s with opened := s.opened.erase fd, fault := s.fault || decide (fd ∉ s.opened) }

def Daemon.setClient (s : Daemon) (i : Nat) (client : Client) : Daemon := { s with clients := s.clients.set i client }

/-- The client's descriptor is given back, and the client is left for `dead_client_cleanup`. -/
def Daemon.drop (s : Daemon) (i : Nat) : Daemon :=
  match s.clients[i]? with
  | none => s
  | some client =>
      match client.filedes with
      | none => s
      | some fd => (s.tlsDisconnect fd).setClient i { client with filedes := none }

/-- `setup_client`. -/
def setupClient (s : Daemon) (fd : Fd) (now : Int) : Daemon :=
  { s.open fd with clients := s.clients ++ [⟨some fd, now, 0, false, false, false, []⟩] }

/-- `do_auth`. -/
def doAuth (authkey : Option Line) (client : Client) (buff : Line) : Client :=
  if authkey = some (buff.drop 5) then { client with authlvl := 2 } else client

/-- `srv_client_do_mode`. -/
def srvClientDoMode (client : Client) (buff : Line) : Client :=
  if buff.drop 5 = "xml".toList then { client with xml := true }
  else if buff.drop 5 = "outagelog".toList then { client with outageLog := !client.outageLog }
  else client

/-- `do_service` for one line, with `lastactivity` after it, and whether what it answers can be written. -/
def doService (s : Daemon) (i : Nat) (client : Client) (buff : Line) (writes : Bool) (now : Int) : Daemon :=
  let command := dispatch buff client.authlvl
  let done := { client with lastactivity := now, said := (buff, s.authkey) :: client.said }
  let s := if command.permitted client.authlvl then { s with carriedOut := (command, client) :: s.carriedOut } else s
  match command with
  | .quit => (s.setClient i done).drop i
  | .mode => s.setClient i (srvClientDoMode done buff)
  | .auth => s.setClient i (doAuth s.authkey done buff)
  | command => if command.closesUnwritten && !writes then (s.setClient i done).drop i else s.setClient i done

/-- One client of `service_clients`, with a line to be read. -/
def serviceClient (s : Daemon) (i : Nat) (buff : Line) (writes : Bool) (now : Int) : Daemon :=
  match s.clients[i]? with
  | none => s
  | some client => if client.filedes = none then s else doService s i client buff writes now

/-- The client was idle for too long. -/
def idle (now : Int) (client : Client) : Bool := decide (inactivetime < now - client.lastactivity)

def timeoutClients (s : Daemon) (now : Int) : Daemon :=
  (List.range s.clients.length).foldl (fun s i => if (s.clients[i]?).any (idle now) then s.drop i else s) s

def deadClientCleanup (s : Daemon) : Daemon := { s with clients := s.clients.filter (·.filedes.isSome) }

/-! ### The link to the aggregator -/

/-- `aggregator_adopt`. -/
def aggregatorAdopt (s : Daemon) (fd : Fd) (now : Int) : Daemon :=
  { s with clients := s.clients ++ [⟨some fd, now, 2, false, false, true, []⟩] }

/-- Is there a client with this descriptor? The walk begins at the listening socket. -/
def Daemon.has (s : Daemon) (fd : Fd) : Bool := s.listener = some fd || s.clients.any (·.filedes = some fd)

/-- `aggregator_still_up`. -/
def aggregatorStillUp (s : Daemon) : Bool × Daemon :=
  match s.aggFd with
  | none => (false, s)
  | some fd => if s.has fd then (true, s) else (false, { s.tlsForget fd with aggFd := none })

def nextBackoff (backoff : Int) : Int := min (if backoff = 0 then 5 else backoff * 2) 300

/-- `aggregator_poll`. What `tls_connect` gives, and whether the aggregator answers with a welcome. -/
def aggregatorPoll (s : Daemon) (now : Int) (dial : Option Fd) (welcome : Bool) : Daemon :=
  if !s.aggregator then s
  else
    let (up, s) := aggregatorStillUp s
    if up then s
    else if now < s.nextTry then s
    else
      let refuse (s : Daemon) : Daemon :=
        let backoff := nextBackoff s.backoff
        { s with backoff, nextTry := now + backoff, failed := now :: s.failed }
      match dial with
      | none => refuse s
      | some fd =>
          let s := (s.open fd).tlsRegister fd
          if welcome then aggregatorAdopt { s with aggFd := some fd, backoff := 0, failed := [] } fd now
          else refuse (s.tlsDisconnect fd)

/-! ### Runs -/

/-- A step of the daemon, with what the outside does in it. -/
inductive Event where
  | accept (fd : Fd) (now : Int)
  | line (i : Nat) (buff : Line) (writes : Bool) (now : Int)
  | timeout (now : Int)
  | cleanup
  | poll (now : Int) (dial : Option Fd) (welcome : Bool)
  | openOther (fd : Fd)
  | closeOther (fd : Fd)
  | configure (authkey : Option Line) (aggregator : Bool)
  deriving DecidableEq, Repr

/-- The kernel gives out numbers that are not in use. -/
def Event.Fresh (s : Daemon) : Event → Bool
  | .accept fd _ | .openOther fd | .poll _ (some fd) _ => decide (fd ∉ s.opened)
  | _ => true

def step (s : Daemon) (event : Event) : Daemon :=
  if !event.Fresh s then s
  else
    match event with
    | .accept fd now => if s.listener = none then s else setupClient s fd now
    | .line i buff writes now => serviceClient s i buff writes now
    | .timeout now => timeoutClients s now
    | .cleanup => deadClientCleanup s
    | .poll now dial welcome => aggregatorPoll s now dial welcome
    | .openOther fd => { s.open fd with others := fd :: s.others }
    | .closeOther fd => if fd ∈ s.others then { s with others := s.others.erase fd, opened := s.opened.erase fd } else s
    | .configure authkey aggregator => { s with authkey, aggregator }

/-- `setup_client_listen`. -/
def setupClientListen (listener : Option Fd) (authkey : Option Line) (aggregator : Bool) : Daemon :=
  ⟨listener, [], listener.toList, [], [], authkey, aggregator, none, 0, 0, false, [], []⟩


/-! ### What every step keeps -/

/-- The client is the link, or it has sent the authkey. -/
def Client.Granted (client : Client) : Prop :=
  client.adopted = true ∨ ∃ entry ∈ client.said, "AUTH".toList <+: entry.1 ∧ entry.2 = some (entry.1.drop 5)

/-- The descriptors of the clients that are there. -/
def fds (clients : List Client) : List Fd := clients.filterMap (·.filedes)

/-- The descriptors of the links among them. -/
def links (clients : List Client) : List Fd := fds (clients.filter (·.adopted))

structure Sound (s : Daemon) : Prop where
  held : s.opened.Perm (s.listener.toList ++ fds s.clients ++ s.others)
  nodup : s.opened.Nodup
  fault : s.fault = false
  sessions : s.tls = links s.clients
  link : ∀ client ∈ s.clients, client.adopted = true → ∀ fd, client.filedes = some fd → s.aggFd = some fd
  granted : ∀ client ∈ s.clients, 0 < client.authlvl → client.Granted
  carriedOut : ∀ entry ∈ s.carriedOut, entry.1.privileged = true → entry.2.Granted

variable {s : Daemon} {clients pre post : List Client} {client client' : Client} {fd : Fd} {i : Nat} {now : Int}

@[simp] theorem fds_append (left right : List Client) : fds (left ++ right) = fds left ++ fds right := List.filterMap_append

@[simp] theorem fds_cons (client : Client) (clients : List Client) :
    fds (client :: clients) = client.filedes.toList ++ fds clients := by
  rw [fds, List.filterMap_cons]
  cases client.filedes <;> rfl

@[simp] theorem fds_nil : fds [] = [] := rfl

@[simp] theorem links_append (left right : List Client) : links (left ++ right) = links left ++ links right := by
  rw [links, List.filter_append, fds_append, links, links]

@[simp] theorem links_cons (client : Client) (clients : List Client) :
    links (client :: clients) = (if client.adopted then client.filedes.toList else []) ++ links clients := by
  rw [links, List.filter_cons]
  split <;> simp [links]

@[simp] theorem links_nil : links [] = [] := rfl

theorem links_subset (clients : List Client) : links clients ⊆ fds clients := by
  intro fd hfd
  obtain ⟨client, hclient, heq⟩ := List.mem_filterMap.mp hfd
  exact List.mem_filterMap.mpr ⟨client, List.mem_of_mem_filter hclient, heq⟩

/-- The list around one client, whatever takes its place. -/
theorem exists_split (h : clients[i]? = some client) :
    ∃ pre post, clients = pre ++ client :: post ∧ ∀ other, clients.set i other = pre ++ other :: post := by
  obtain ⟨hlt, hget⟩ := List.getElem?_eq_some_iff.mp h
  refine ⟨clients.take i, clients.drop (i + 1), ?_, fun other => List.set_eq_take_append_cons_drop.trans (if_pos hlt)⟩
  rw [← hget, List.getElem_cons_drop, List.take_append_drop]

theorem Sound.mem_opened (h : Sound s) (hfd : fd ∈ fds s.clients) : fd ∈ s.opened :=
  h.held.mem_iff.mpr (List.mem_append_left _ (List.mem_append_right _ hfd))

theorem Sound.nodup_fds (h : Sound s) : (fds s.clients).Nodup := by
  have hall := h.held.nodup_iff.mp h.nodup
  exact (List.nodup_append.mp (List.nodup_append.mp hall).1).2.1

/-- A client of the list says more, and may have been granted more. -/
theorem Sound.setClient (h : Sound s) (hclient : s.clients[i]? = some client) (hfiledes : client'.filedes = client.filedes)
    (hadopted : client'.adopted = client.adopted) (hgranted : 0 < client'.authlvl → client'.Granted) :
    Sound (s.setClient i client') := by
  obtain ⟨pre, post, hsplit, hset⟩ := exists_split hclient
  have hmem : ∀ c ∈ s.clients.set i client', c = client' ∨ c ∈ s.clients :=
    fun c hc => (List.mem_or_eq_of_mem_set hc).symm
  have hin : client ∈ s.clients := List.mem_of_getElem? hclient
  refine ⟨?_, h.nodup, h.fault, ?_, ?_, ?_, h.carriedOut⟩
  · have hheld := h.held
    rw [hsplit] at hheld
    simp only [Daemon.setClient, hset]
    simpa [hfiledes] using hheld
  · have hsessions := h.sessions
    rw [hsplit] at hsessions
    simp only [Daemon.setClient, hset]
    simpa [hfiledes, hadopted] using hsessions
  · intro c hc hlink fd hfd
    obtain rfl | hc := hmem c hc
    · exact h.link client hin (hadopted ▸ hlink) fd (hfiledes ▸ hfd)
    · exact h.link c hc hlink fd hfd
  · intro c hc hlevel
    obtain rfl | hc := hmem c hc
    · exact hgranted hlevel
    · exact h.granted c hc hlevel

/-- A client that is dropped gives back its descriptor, and its session with it. -/
theorem Sound.drop (h : Sound s) (i : Nat) : Sound (s.drop i) := by
  rw [Daemon.drop]
  cases hclient : s.clients[i]? with
  | none => exact h
  | some client =>
      cases hfiledes : client.filedes with
      | none =>
          dsimp only
          rw [hfiledes]
          exact h
      | some fd =>
          obtain ⟨pre, post, hsplit, hset⟩ := exists_split hclient
          have hfds : fds s.clients = fds pre ++ fd :: fds post := by
            rw [hsplit, fds_append, fds_cons, hfiledes]
            rfl
          have hmem : ∀ c ∈ (s.clients.set i { client with filedes := none }),
              c = { client with filedes := none } ∨ c ∈ s.clients := fun c hc => (List.mem_or_eq_of_mem_set hc).symm
          have hopen : fd ∈ s.opened := h.mem_opened (hfds ▸ List.mem_append_right _ List.mem_cons_self)
          have hnodup := h.nodup_fds
          rw [hfds] at hnodup
          obtain ⟨-, hrest, hapart⟩ := List.nodup_append.mp hnodup
          have hpre : fd ∉ links pre := fun hmem => hapart fd (links_subset pre hmem) fd List.mem_cons_self rfl
          have hpost : fd ∉ links post := fun hmem => (List.nodup_cons.mp hrest).1 (links_subset post hmem)
          dsimp only
          rw [hfiledes]
          dsimp only
          refine ⟨?_, h.nodup.erase fd, ?_, ?_, ?_, ?_, h.carriedOut⟩
          · refine List.perm_iff_count.mpr fun other => ?_
            have hcount := h.held.count_eq other
            simp only [Daemon.setClient, Daemon.tlsDisconnect, Daemon.tlsForget, hset, hfds, fds_append, fds_cons,
              List.count_append, List.count_cons, List.count_erase, Option.toList_none, List.count_nil] at hcount ⊢
            omega
          · simp [Daemon.setClient, Daemon.tlsDisconnect, Daemon.tlsForget, h.fault, hopen]
          · have hlinks : links s.clients = links pre ++ ((if client.adopted then [fd] else []) ++ links post) := by
              rw [hsplit, links_append, links_cons, hfiledes]
              rfl
            simp only [Daemon.setClient, Daemon.tlsDisconnect, Daemon.tlsForget, hset, h.sessions, hlinks, links_append,
              links_cons, Option.toList_none, ite_self, List.nil_append]
            split
            · rw [List.erase_append_right _ hpre, List.singleton_append, List.erase_cons_head]
            · rw [List.nil_append, List.erase_of_not_mem (by simp [hpre, hpost])]
          · intro c hc hlink fd' hfd
            obtain rfl | hc := hmem c hc
            · cases hfd
            · exact h.link c hc hlink fd' hfd
          · intro c hc hlevel
            obtain rfl | hc := hmem c hc
            · exact h.granted client (List.mem_of_getElem? hclient) hlevel
            · exact h.granted c hc hlevel

/-! ### Commands and their levels -/

theorem dispatch_cases (buff : Line) (authlvl : Nat) :
    dispatch buff authlvl = .unknown ∨
      ∃ entry ∈ commands, taken buff authlvl entry ∧ dispatch buff authlvl = entry.2.2 := by
  rw [dispatch]
  cases hfind : commands.find? (taken buff authlvl) with
  | none => exact Or.inl rfl
  | some entry => exact Or.inr ⟨entry, List.mem_of_find?_eq_some hfind, List.find?_some hfind, rfl⟩

/-- A privileged command that is carried out is one of a client above the lowest level. -/
theorem authlvl_pos {buff : Line} {authlvl : Nat} (hprivileged : (dispatch buff authlvl).privileged = true)
    (hpermitted : (dispatch buff authlvl).permitted authlvl = true) : 0 < authlvl := by
  have hlevels : ∀ entry ∈ commands, entry.2.2.privileged = true →
      entry.2.1 = some 1 ∨ entry.2.2 ∈ [.conf, .upd, .ack, .unack] := by decide
  obtain hunknown | ⟨entry, hentry, htaken, heq⟩ := dispatch_cases buff authlvl
  · rw [hunknown] at hprivileged
    cases hprivileged
  · rw [heq] at hprivileged hpermitted
    obtain hlevel | hown := hlevels entry hentry hprivileged
    · have habove : (some 1).all (· < authlvl) = true := hlevel ▸ (Bool.and_eq_true_iff.mp htaken).2
      have hlt : 1 < authlvl := by simpa using habove
      exact Nat.lt_of_succ_lt hlt
    · simp only [List.mem_cons, List.not_mem_nil, or_false] at hown
      obtain hown | hown | hown | hown := hown
      all_goals
        rw [hown] at hpermitted
        exact of_decide_eq_true hpermitted

theorem prefix_of_auth {buff : Line} {authlvl : Nat} (h : dispatch buff authlvl = .auth) : "AUTH".toList <+: buff := by
  have hauth : ∀ entry ∈ commands, entry.2.2 = .auth → entry.1 = "AUTH" := by decide
  obtain hunknown | ⟨entry, hentry, htaken, heq⟩ := dispatch_cases buff authlvl
  · rw [hunknown] at h
    cases h
  · rw [heq] at h
    have hprefix := of_decide_eq_true (Bool.and_eq_true_iff.mp htaken).1
    rwa [hauth entry hentry h] at hprefix

theorem Client.Granted.more (h : client.Granted) (hadopted : client'.adopted = client.adopted)
    (hsaid : ∀ entry ∈ client.said, entry ∈ client'.said) : client'.Granted := by
  obtain hlink | ⟨entry, hentry, hkey⟩ := h
  · exact Or.inl (hadopted.trans hlink)
  · exact Or.inr ⟨entry, hsaid entry hentry, hkey⟩

/-! ### Each operation -/

theorem Sound.carriedOut_cons (h : Sound s) {command : Command} (hgranted : command.privileged = true → client.Granted) :
    Sound { s with carriedOut := (command, client) :: s.carriedOut } where
  held := h.held
  nodup := h.nodup
  fault := h.fault
  sessions := h.sessions
  link := h.link
  granted := h.granted
  carriedOut entry hentry := by
    obtain rfl | hentry := List.mem_cons.mp hentry
    · exact hgranted
    · exact h.carriedOut entry hentry

theorem srvClientDoMode_frame (client : Client) (buff : Line) :
    (srvClientDoMode client buff).filedes = client.filedes ∧ (srvClientDoMode client buff).adopted = client.adopted ∧
      (srvClientDoMode client buff).said = client.said ∧ (srvClientDoMode client buff).authlvl = client.authlvl := by
  rw [srvClientDoMode]
  split
  · exact ⟨rfl, rfl, rfl, rfl⟩
  · split <;> exact ⟨rfl, rfl, rfl, rfl⟩

theorem Sound.doService (h : Sound s) (hclient : s.clients[i]? = some client) (buff : Line) (writes : Bool) (now : Int) :
    Sound (doService s i client buff writes now) := by
  have hmem : client ∈ s.clients := List.mem_of_getElem? hclient
  obtain ⟨done, hdone⟩ : ∃ done, done = { client with lastactivity := now, said := (buff, s.authkey) :: client.said } :=
    ⟨_, rfl⟩
  have hdoneGranted : ∀ other : Client, other.adopted = done.adopted → other.said = done.said → 0 < client.authlvl →
      other.Granted := by
    intro other hadopted hsaid hlevel
    refine (h.granted client hmem hlevel).more (by rw [hadopted, hdone]) fun entry hentry => ?_
    rw [hsaid, hdone]
    exact List.mem_cons_of_mem _ hentry
  -- the command is carried out, and then the client is set
  obtain ⟨s', hs', hsound, hclients, hkey⟩ : ∃ s', s' = (if (dispatch buff client.authlvl).permitted client.authlvl then
      { s with carriedOut := (dispatch buff client.authlvl, client) :: s.carriedOut } else s) ∧ Sound s' ∧
        s'.clients = s.clients ∧ s'.authkey = s.authkey := by
    refine ⟨_, rfl, ?_⟩
    split
    · rename_i hpermitted
      exact ⟨h.carriedOut_cons fun hprivileged => h.granted client hmem (authlvl_pos hprivileged hpermitted), rfl, rfl⟩
    · exact ⟨h, rfl, rfl⟩
  have hget : s'.clients[i]? = some client := by rw [hclients, hclient]
  have hset : Sound (s'.setClient i done) := hsound.setClient hget (by rw [hdone]) (by rw [hdone]) fun hlevel =>
    hdoneGranted done rfl rfl (by rw [hdone] at hlevel; exact hlevel)
  rw [Clients.doService, ← hs', ← hdone]
  split
  · exact hset.drop i
  · obtain ⟨hfiledes, hadopted, hsaid, hlevel⟩ := srvClientDoMode_frame done buff
    refine hsound.setClient hget (by rw [hfiledes, hdone]) (by rw [hadopted, hdone]) fun habove => ?_
    rw [hlevel, hdone] at habove
    exact hdoneGranted _ hadopted hsaid habove
  · rename_i hauth
    rw [doAuth]
    split
    · rename_i hmatch
      refine hsound.setClient hget (by rw [hdone]) (by rw [hdone]) fun _ => Or.inr ⟨(buff, s.authkey), ?_, ?_, ?_⟩
      · rw [hdone]
        exact List.mem_cons_self
      · exact prefix_of_auth hauth
      · exact hkey.symm.trans hmatch
    · exact hset
  · split
    · exact hset.drop i
    · exact hset

theorem Sound.serviceClient (h : Sound s) (i : Nat) (buff : Line) (writes : Bool) (now : Int) :
    Sound (serviceClient s i buff writes now) := by
  rw [Clients.serviceClient]
  cases hclient : s.clients[i]? with
  | none => exact h
  | some client =>
      dsimp only
      split
      · exact h
      · exact h.doService hclient buff writes now

theorem Sound.timeoutClients (h : Sound s) (now : Int) : Sound (timeoutClients s now) := by
  rw [Clients.timeoutClients]
  generalize List.range s.clients.length = indices
  induction indices generalizing s with
  | nil => exact h
  | cons i indices ih =>
      rw [List.foldl_cons]
      refine ih ?_
      split
      · exact h.drop i
      · exact h

theorem Sound.deadClientCleanup (h : Sound s) : Sound (deadClientCleanup s) := by
  have hfds : ∀ clients : List Client, fds (clients.filter (·.filedes.isSome)) = fds clients := by
    intro clients
    induction clients with
    | nil => rfl
    | cons client clients ih => cases hfiledes : client.filedes <;> simp [hfiledes, ih]
  refine ⟨?_, h.nodup, h.fault, ?_, ?_, ?_, h.carriedOut⟩
  · simpa only [Clients.deadClientCleanup, hfds] using h.held
  · rw [Clients.deadClientCleanup, links, List.filter_comm, hfds]
    exact h.sessions
  · exact fun client hclient => h.link client (List.mem_of_mem_filter hclient)
  · exact fun client hclient => h.granted client (List.mem_of_mem_filter hclient)

/-- A connection that comes in. -/
theorem Sound.setupClient (h : Sound s) (hfresh : fd ∉ s.opened) (now : Int) : Sound (setupClient s fd now) := by
  refine ⟨?_, List.nodup_cons.mpr ⟨hfresh, h.nodup⟩, h.fault, ?_, ?_, ?_, h.carriedOut⟩
  · refine List.perm_iff_count.mpr fun other => ?_
    have hcount := h.held.count_eq other
    simp only [Clients.setupClient, Daemon.open, fds_append, fds_cons, fds_nil, List.count_append, List.count_cons,
      Option.toList_some, List.count_nil] at hcount ⊢
    omega
  · simp [Clients.setupClient, Daemon.open, h.sessions]
  · intro client hclient hlink fd' hfd
    rcases List.mem_append.mp hclient with hclient | hclient
    · exact h.link client hclient hlink fd' hfd
    · rw [List.mem_singleton.mp hclient] at hlink
      cases hlink
  · intro client hclient hlevel
    rcases List.mem_append.mp hclient with hclient | hclient
    · exact h.granted client hclient hlevel
    · rw [List.mem_singleton.mp hclient] at hlevel
      exact absurd hlevel (Nat.lt_irrefl 0)

/-! ### The link -/

/-- Without a link there is no session. -/
theorem Sound.no_session (h : Sound s) (hnone : s.aggFd = none) : s.tls = [] := by
  rw [h.sessions]
  refine List.eq_nil_iff_forall_not_mem.mpr fun fd hfd => ?_
  obtain ⟨client, hclient, hfiledes⟩ := List.mem_filterMap.mp hfd
  obtain ⟨hclient, hlink⟩ := List.mem_filter.mp hclient
  cases hnone.symm.trans (h.link client hclient hlink fd hfiledes)

/-- There is no more than one. -/
theorem Sound.one_session (h : Sound s) (hfd : fd ∈ s.tls) : s.tls = [fd] ∧ s.aggFd = some fd := by
  have hall : ∀ other ∈ s.tls, s.aggFd = some other := by
    intro other hother
    rw [h.sessions] at hother
    obtain ⟨client, hclient, hfiledes⟩ := List.mem_filterMap.mp hother
    obtain ⟨hclient, hlink⟩ := List.mem_filter.mp hclient
    exact h.link client hclient hlink other hfiledes
  have hagg := hall fd hfd
  have hnodup : s.tls.Nodup := by
    rw [h.sessions, links, fds]
    exact h.nodup_fds.sublist (List.filter_sublist.filterMap _)
  have hsame : ∀ other ∈ s.tls, other = fd :=
    fun other hother => (Option.some.inj (hagg.symm.trans (hall other hother))).symm
  obtain hnil | ⟨only, hone⟩ : s.tls = [] ∨ ∃ only, s.tls = [only] := by
    cases htls : s.tls with
    | nil => exact Or.inl rfl
    | cons first rest =>
        cases rest with
        | nil => exact Or.inr ⟨first, rfl⟩
        | cons second rest =>
            have hfirst := hsame first (htls ▸ List.mem_cons_self)
            have hsecond := hsame second (htls ▸ List.mem_cons_of_mem _ List.mem_cons_self)
            rw [htls, hfirst, hsecond] at hnodup
            exact absurd List.mem_cons_self (List.nodup_cons.mp hnodup).1
  · rw [hnil] at hfd
    cases hfd
  · rw [hone] at hfd ⊢
    rw [List.mem_singleton.mp hfd] at hagg ⊢
    exact ⟨rfl, hagg⟩

/-- A look at the link. If there is none, or it is gone, nothing is left of it. -/
theorem aggregatorStillUp_cases (h : Sound s) :
    aggregatorStillUp s = (true, s) ∨
      ∃ s', aggregatorStillUp s = (false, s') ∧ Sound s' ∧ s'.aggFd = none ∧ s' = { s with aggFd := none } := by
  rw [aggregatorStillUp]
  cases hagg : s.aggFd with
  | none => exact Or.inr ⟨s, rfl, h, hagg, by rw [← hagg]⟩
  | some fd =>
      dsimp only
      cases hhas : s.has fd with
      | true => exact Or.inl (if_pos rfl)
      | false =>
          have hgone : ∀ client ∈ s.clients, client.filedes ≠ some fd := by
            intro client hclient hfiledes
            rw [Daemon.has, Bool.or_eq_false_iff] at hhas
            exact absurd (List.any_eq_false.mp hhas.2 client hclient) (by simp [hfiledes])
          have htls : s.tls.erase fd = s.tls := by
            refine List.erase_of_not_mem fun hfd => ?_
            rw [h.sessions] at hfd
            obtain ⟨client, hclient, hfiledes⟩ := List.mem_filterMap.mp hfd
            exact hgone client (List.mem_of_mem_filter hclient) hfiledes
          refine Or.inr ⟨{ s with aggFd := none }, ?_, ?_, rfl, rfl⟩
          · rw [if_neg Bool.false_ne_true, Daemon.tlsForget, htls]
          · refine ⟨h.held, h.nodup, h.fault, h.sessions, fun client hclient hlink fd' hfd => ?_, h.granted, h.carriedOut⟩
            have hsame := hagg.symm.trans (h.link client hclient hlink fd' hfd)
            exact absurd hfd (Option.some.inj hsame ▸ hgone client hclient)

theorem Sound.schedule (h : Sound s) (backoff nextTry : Int) (failed : List Int) :
    Sound { s with backoff, nextTry, failed } :=
  ⟨h.held, h.nodup, h.fault, h.sessions, h.link, h.granted, h.carriedOut⟩

/-- A connection that is given up leaves nothing. -/
theorem tlsDisconnect_open (hnone : s.tls = []) (fd : Fd) : ((s.open fd).tlsRegister fd).tlsDisconnect fd = s := by
  obtain ⟨listener, clients, opened, others, tls, authkey, aggregator, aggFd, nextTry, backoff, fault, carriedOut,
    failed⟩ := s
  cases hnone
  simp [Daemon.open, Daemon.tlsRegister, Daemon.tlsDisconnect, Daemon.tlsForget]

/-- The link comes to the end of the list. -/
theorem Sound.adopt (h : Sound s) (hnone : s.aggFd = none) (hfresh : fd ∉ s.opened) (now : Int) :
    Sound (aggregatorAdopt { (s.open fd).tlsRegister fd with aggFd := some fd, backoff := 0, failed := [] } fd now) := by
  have htls := h.no_session hnone
  have hregister : (s.open fd).tlsRegister fd = { s with opened := fd :: s.opened, tls := [fd] } := by
    simp [Daemon.open, Daemon.tlsRegister, htls]
  rw [hregister, aggregatorAdopt]
  refine ⟨?_, List.nodup_cons.mpr ⟨hfresh, h.nodup⟩, h.fault, ?_, ?_, ?_, h.carriedOut⟩
  · refine List.perm_iff_count.mpr fun other => ?_
    have hcount := h.held.count_eq other
    simp only [fds_append, fds_cons, fds_nil, List.count_append, List.count_cons, Option.toList_some, List.count_nil]
      at hcount ⊢
    omega
  · simp [← h.sessions, htls]
  · intro client hclient hlink fd' hfd
    rcases List.mem_append.mp hclient with hclient | hclient
    · cases hnone.symm.trans (h.link client hclient hlink fd' hfd)
    · rw [List.mem_singleton.mp hclient] at hfd
      exact hfd
  · intro client hclient hlevel
    rcases List.mem_append.mp hclient with hclient | hclient
    · exact h.granted client hclient hlevel
    · rw [List.mem_singleton.mp hclient]
      exact Or.inl rfl

/-- What a poll comes to: nothing, the link that is gone is forgotten, a call that failed, or a new link. -/
theorem aggregatorPoll_cases (h : Sound s) (now : Int) (dial : Option Fd) (welcome : Bool) :
    aggregatorPoll s now dial welcome = s ∨
      ∃ s', Sound s' ∧ s'.aggFd = none ∧ s' = { s with aggFd := none } ∧
        (aggregatorPoll s now dial welcome = s' ∨
          s.nextTry ≤ now ∧
            (aggregatorPoll s now dial welcome = { s' with
                backoff := nextBackoff s.backoff, nextTry := now + nextBackoff s.backoff, failed := now :: s.failed } ∨
              ∃ fd, dial = some fd ∧ aggregatorPoll s now dial welcome =
                aggregatorAdopt { (s'.open fd).tlsRegister fd with aggFd := some fd, backoff := 0, failed := [] } fd now)) := by
  rw [aggregatorPoll]
  split
  · exact Or.inl rfl
  · obtain hup | ⟨s', hdown, hsound, hnone, heq⟩ := aggregatorStillUp_cases h
    · rw [hup]
      exact Or.inl rfl
    · refine Or.inr ⟨s', hsound, hnone, heq, ?_⟩
      have hnext : s'.nextTry = s.nextTry := by rw [heq]
      have hbackoff : s'.backoff = s.backoff := by rw [heq]
      have hfailed : s'.failed = s.failed := by rw [heq]
      rw [hdown]
      dsimp only
      rw [if_neg Bool.false_ne_true, hnext]
      split
      · exact Or.inl rfl
      · rename_i hlate
        refine Or.inr ⟨Int.not_lt.mp hlate, ?_⟩
        cases dial with
        | none => exact Or.inl (by rw [hbackoff, hfailed])
        | some fd =>
            dsimp only
            split
            · exact Or.inr ⟨fd, rfl, rfl⟩
            · exact Or.inl (by rw [tlsDisconnect_open (hsound.no_session hnone), hbackoff, hfailed])

theorem Sound.aggregatorPoll (h : Sound s) (now : Int) (dial : Option Fd) (welcome : Bool)
    (hfresh : ∀ fd, dial = some fd → fd ∉ s.opened) : Sound (aggregatorPoll s now dial welcome) := by
  obtain hsame | ⟨s', hsound, hnone, heq, hforgot | ⟨-, hfailed | ⟨fd, hdial, hadopt⟩⟩⟩ :=
    aggregatorPoll_cases h now dial welcome
  · rwa [hsame]
  · rwa [hforgot]
  · rw [hfailed]
    exact hsound.schedule _ _ _
  · rw [hadopt]
    exact hsound.adopt hnone (by rw [heq]; exact hfresh fd hdial) now

/-! ### A whole run -/

theorem Sound.step (h : Sound s) (event : Event) : Sound (step s event) := by
  unfold Clients.step
  split
  · exact h
  · rename_i hfresh
    rw [Bool.not_eq_true, Bool.not_eq_false'] at hfresh
    cases event with
    | accept fd now =>
        dsimp only
        split
        · exact h
        · exact h.setupClient (of_decide_eq_true hfresh) now
    | line i buff writes now => exact h.serviceClient i buff writes now
    | timeout now => exact h.timeoutClients now
    | cleanup => exact h.deadClientCleanup
    | poll now dial welcome =>
        refine h.aggregatorPoll now dial welcome fun fd hdial => ?_
        rw [hdial] at hfresh
        exact of_decide_eq_true hfresh
    | openOther fd =>
        have hclosed : fd ∉ s.opened := of_decide_eq_true hfresh
        refine ⟨?_, List.nodup_cons.mpr ⟨hclosed, h.nodup⟩, h.fault, h.sessions, h.link, h.granted, h.carriedOut⟩
        exact (h.held.cons fd).trans List.perm_middle.symm
    | closeOther fd =>
        dsimp only
        split
        · rename_i hother
          refine ⟨?_, h.nodup.erase fd, h.fault, h.sessions, h.link, h.granted, h.carriedOut⟩
          refine List.perm_iff_count.mpr fun other => ?_
          have hcount := h.held.count_eq other
          have hone : 0 < s.others.count fd := List.count_pos_iff.mpr hother
          by_cases hsame : fd = other
          · subst hsame
            simp only [List.count_append, List.count_erase_self] at hcount ⊢
            omega
          · simp only [List.count_append, List.count_erase_of_ne (Ne.symm hsame)] at hcount ⊢
            exact hcount
        · exact h
    | configure authkey aggregator => exact ⟨h.held, h.nodup, h.fault, h.sessions, h.link, h.granted, h.carriedOut⟩

theorem sound_start (listener : Option Fd) (authkey : Option Line) (aggregator : Bool) :
    Sound (setupClientListen listener authkey aggregator) := by
  refine ⟨by simp [setupClientListen], ?_, rfl, rfl, by simp [setupClientListen], by simp [setupClientListen],
    by simp [setupClientListen]⟩
  cases listener <;> simp [setupClientListen]

theorem sound_run (listener : Option Fd) (authkey : Option Line) (aggregator : Bool) (events : List Event) :
    Run.Always step Sound (setupClientListen listener authkey aggregator) events := by
  exact @Run.always_of_guarded _ _ step Sound (fun _ _ => True) (setupClientListen listener authkey aggregator) events
    (fun _ event h _ => h.step event) (sound_start listener authkey aggregator) fun _ _ _ => trivial

/-- Whatever comes in, in whatever order, the descriptors that are open are those of the listening socket, of the clients that
are there and of everything else, each of them once, and none is closed that is not open. -/
theorem descriptors_run (listener : Option Fd) (authkey : Option Line) (aggregator : Bool) (events : List Event) :
    Run.Always step
      (fun s => s.opened.Perm (s.listener.toList ++ fds s.clients ++ s.others) ∧ s.opened.Nodup ∧ s.fault = false)
      (setupClientListen listener authkey aggregator) events :=
  fun pre hpre =>
    have h := sound_run listener authkey aggregator events pre hpre
    ⟨h.held, h.nodup, h.fault⟩

/-- There is a session exactly for a link that is on the list, and so no other connection is ever written through one. There
is at most one link. -/
theorem sessions_run (listener : Option Fd) (authkey : Option Line) (aggregator : Bool) (events : List Event) :
    Run.Always step (fun s => s.tls = links s.clients ∧ s.tls.length ≤ 1 ∧ ∀ fd ∈ s.tls, s.aggFd = some fd)
      (setupClientListen listener authkey aggregator) events := by
  intro pre hpre
  have h := sound_run listener authkey aggregator events pre hpre
  refine ⟨h.sessions, ?_, fun fd hfd => (h.one_session hfd).2⟩
  cases htls : (Run.exec step (setupClientListen listener authkey aggregator) pre).tls with
  | nil => exact Nat.zero_le 1
  | cons fd rest =>
      have hone := (h.one_session (htls ▸ List.mem_cons_self)).1
      rw [← htls, hone]
      exact Nat.le_refl 1

/-- How long the daemon waits after so many calls that failed. -/
def wait : Nat → Int
  | 0 => 0
  | n + 1 => nextBackoff (wait n)

theorem wait_succ (n : Nat) : wait (n + 1) = min (5 * 2 ^ n) 300 := by
  induction n with
  | zero => rfl
  | succ n ih =>
      have hpow : (0 : Int) < 2 ^ n := Int.pow_pos (by decide)
      rw [wait, ih, nextBackoff, if_neg (by omega), Int.pow_succ]
      omega

/-- Calls that failed one after the other, the last one first. -/
def Spaced : List Int → Prop
  | later :: earlier :: rest => earlier + min (5 * 2 ^ rest.length) 300 ≤ later ∧ Spaced (earlier :: rest)
  | _ => True

structure Scheduled (s : Daemon) : Prop where
  backoff : s.backoff = wait s.failed.length
  nextTry : ∀ last ∈ s.failed.head?, s.nextTry = last + wait s.failed.length
  spaced : Spaced s.failed

/-- What the calls go by. -/
def Daemon.schedule (s : Daemon) : Int × Int × List Int := (s.backoff, s.nextTry, s.failed)

theorem Scheduled.of_eq {s' : Daemon} (h : Scheduled s) (heq : s'.schedule = s.schedule) : Scheduled s' := by
  obtain ⟨hbackoff, hrest⟩ := Prod.mk.inj heq
  obtain ⟨hnext, hfailed⟩ := Prod.mk.inj hrest
  refine ⟨?_, ?_, ?_⟩
  · rw [hbackoff, hfailed]
    exact h.backoff
  · rw [hnext, hfailed]
    exact h.nextTry
  · rw [hfailed]
    exact h.spaced

theorem schedule_drop (s : Daemon) (i : Nat) : (s.drop i).schedule = s.schedule := by
  rw [Daemon.drop]
  split
  · rfl
  · split <;> rfl

theorem schedule_serviceClient (s : Daemon) (i : Nat) (buff : Line) (writes : Bool) (now : Int) :
    (serviceClient s i buff writes now).schedule = s.schedule := by
  rw [serviceClient]
  split
  · rfl
  · rename_i client hclient
    split
    · rfl
    · have hif : ∀ (permitted : Bool) (entry : Command × Client),
          (if permitted then { s with carriedOut := entry :: s.carriedOut } else s).schedule = s.schedule := by
        intro permitted entry
        split <;> rfl
      rw [doService]
      split
      · rw [schedule_drop]
        exact hif _ _
      · exact hif _ _
      · exact hif _ _
      · split
        · rw [schedule_drop]
          exact hif _ _
        · exact hif _ _

theorem schedule_timeoutClients (s : Daemon) (now : Int) : (timeoutClients s now).schedule = s.schedule := by
  rw [timeoutClients]
  generalize List.range s.clients.length = indices
  induction indices generalizing s with
  | nil => rfl
  | cons i indices ih =>
      rw [List.foldl_cons, ih]
      split
      · exact schedule_drop s i
      · rfl

/-- A call that fails comes no earlier than it may, and the next one has to wait longer. -/
theorem Scheduled.fail (h : Scheduled s) (hlate : s.nextTry ≤ now) :
    Scheduled { s with
      backoff := nextBackoff s.backoff, nextTry := now + nextBackoff s.backoff, failed := now :: s.failed } := by
  have hwait : nextBackoff s.backoff = wait (s.failed.length + 1) := by rw [h.backoff, wait]
  refine ⟨hwait, fun last hlast => ?_, ?_⟩
  · rw [← Option.some.inj hlast, hwait]
    rfl
  · cases hfailed : s.failed with
    | nil => trivial
    | cons last rest =>
        have hnext := h.nextTry last (by rw [hfailed]; rfl)
        have hspaced := h.spaced
        rw [hfailed] at hnext hspaced
        rw [List.length_cons, wait_succ] at hnext
        exact ⟨hnext ▸ hlate, hspaced⟩

theorem Scheduled.poll (h : Scheduled s) (hsound : Sound s) (now : Int) (dial : Option Fd) (welcome : Bool) :
    Scheduled (aggregatorPoll s now dial welcome) := by
  obtain hsame | ⟨s', -, -, heq, hforgot | ⟨hlate, hfailed | ⟨fd, -, hadopt⟩⟩⟩ :=
    aggregatorPoll_cases hsound now dial welcome
  · rwa [hsame]
  · refine h.of_eq ?_
    rw [hforgot, heq]
    rfl
  · refine (h.fail hlate).of_eq ?_
    rw [hfailed]
    rfl
  · rw [hadopt]
    exact ⟨rfl, fun last hlast => absurd hlast (by simp [aggregatorAdopt]), trivial⟩

theorem Scheduled.step (h : Scheduled s) (hsound : Sound s) (event : Event) : Scheduled (step s event) := by
  unfold Clients.step
  split
  · exact h
  · cases event with
    | accept fd now =>
        dsimp only
        split
        · exact h
        · exact ⟨h.backoff, h.nextTry, h.spaced⟩
    | line i buff writes now => exact h.of_eq (schedule_serviceClient s i buff writes now)
    | timeout now => exact h.of_eq (schedule_timeoutClients s now)
    | cleanup => exact ⟨h.backoff, h.nextTry, h.spaced⟩
    | poll now dial welcome => exact h.poll hsound now dial welcome
    | openOther fd => exact ⟨h.backoff, h.nextTry, h.spaced⟩
    | closeOther fd =>
        dsimp only
        split
        · exact ⟨h.backoff, h.nextTry, h.spaced⟩
        · exact h
    | configure authkey aggregator => exact ⟨h.backoff, h.nextTry, h.spaced⟩

/-- Between one call that fails and the next there are at least five seconds, then ten, and so on up to five minutes, and as
long before the next. -/
theorem calls_run (listener : Option Fd) (authkey : Option Line) (aggregator : Bool) (events : List Event) :
    Run.Always step (fun s => Spaced s.failed ∧
        ∀ last rest, s.failed = last :: rest → s.nextTry = last + min (5 * 2 ^ rest.length) 300)
      (setupClientListen listener authkey aggregator) events := by
  have hstart : Scheduled (setupClientListen listener authkey aggregator) :=
    ⟨rfl, fun last hlast => absurd hlast (by simp [setupClientListen]), trivial⟩
  have hboth := @Run.always_of_guarded _ _ step (fun s => Sound s ∧ Scheduled s) (fun _ _ => True)
    (setupClientListen listener authkey aggregator) events
    (fun _ event h _ => ⟨h.1.step event, h.2.step h.1 event⟩) ⟨sound_start listener authkey aggregator, hstart⟩
    fun _ _ _ => trivial
  intro pre hpre
  have h := (hboth pre hpre).2
  refine ⟨h.spaced, fun last rest hfailed => ?_⟩
  rw [h.nextTry last (by rw [hfailed]; rfl), hfailed, List.length_cons, wait_succ]

/-- A link that is gone is taken for one that is there while another client has its number. -/
example : (Run.exec step (setupClientListen (some 3) none true)
      [.poll 0 (some 5) true, .line 0 "QUIT".toList true 1, .cleanup, .accept 5 2, .poll 400 (some 6) true]).aggFd =
        some 5 := by
  decide

end Sysmon.Clients
