import Sysmon.Host
import Sysmon.Lib.Chain

/-!
# The cache of names

`dnscache.c` keeps what it has resolved in a list, the newest first. `expire_dns` goes through the list once and takes out
what is too old; an entry it has taken out is released one turn later, and the last one behind the loop. What a run leaves
in the list are the entries that have outlasted every pass since they came, and they are all that is allocated.
-/

namespace Sysmon.DnsCache

open Chain

abbrev Addr := Nat

/-- `struct my_hostent`, as far as it is filled in. -/
structure MyHostent where
  hName : CStr
  hAddrtype : Int32
  hLength : Int32
  myHAddr : List UInt8
  deriving DecidableEq, Repr

/-- `struct dnscache`, without its `next`. The strings and the `hp` of an entry belong to it and are released with it. -/
structure DnsEntry where
  hostname : CStr
  hp : Option MyHostent
  lastquery : Time
  deriving DecidableEq, Repr

/-- The line of `expire_dns` in the log. -/
structure DnsStats where
  hits : Int32
  misses : Int32
  expired : Int32
  count : Int32
  entries : Int32
  deriving DecidableEq, Repr

/-- The globals of `dnscache.c`, with the memory they point to and the lines that have been logged. -/
structure Cache where
  mem : Memory Addr DnsEntry
  dnshead : Option Addr
  dnsentries : Int32
  cacheHits : Int32
  cacheMisses : Int32
  dnslogLastLog : Time
  logged : List DnsStats

def Cache.start : Cache := ⟨∅, none, 0, 0, 0, 0, []⟩

/-! ### Expiry -/

/-- The elements from `here` on. -/
def countFrom (mem : Memory Addr DnsEntry) : Nat → Option Addr → Int32 → Option Int32
  | 0, _, _ => none
  | _ + 1, none, count => some count
  | fuel + 1, some here, count => (mem.lookup here).bind fun cell => countFrom mem fuel cell.next (count + 1)

/-- The variables of the loop of `expire_dns`. -/
structure Sweep where
  cache : Cache
  here : Option Addr
  last : Option Addr
  freethis : Option Addr
  expired : Int32

/-- The beginning of a turn. An entry without an `hp` would not be released here, and counted all the same. -/
def Sweep.freeTagged (s : Sweep) : Option Sweep :=
  match s.freethis with
  | none => some s
  | some a => (s.cache.mem.lookup a).map fun cell =>
      { s with
        cache := { s.cache with
          mem := if cell.value.hp.isSome then s.cache.mem.erase a else s.cache.mem
          dnsentries := s.cache.dnsentries - 1 }
        freethis := none
        expired := s.expired + 1 }

/-- The same behind the loop, where it is released in any case. -/
def Sweep.freeLast (s : Sweep) : Option Sweep :=
  match s.freethis with
  | none => some s
  | some a => (s.cache.mem.lookup a).map fun _ =>
      { s with
        cache := { s.cache with mem := s.cache.mem.erase a, dnsentries := s.cache.dnsentries - 1 }
        freethis := none
        expired := s.expired + 1 }

def tooOld (dnsexpire : Int32) (now : Time) (e : DnsEntry) : Bool := dnsexpire.toInt64 < now - e.lastquery

/-- An entry that is too old is unlinked and tagged for release. -/
def Sweep.examine (dnsexpire : Int32) (now : Time) (here : Addr) (s : Sweep) : Option Sweep :=
  (s.cache.mem.lookup here).bind fun cell =>
    if tooOld dnsexpire now cell.value then
      match s.last with
      | none =>
          let dnshead := if s.cache.dnshead ≠ none then cell.next else s.cache.dnshead
          some { s with cache := { s.cache with dnshead := dnshead }, freethis := some here }
      | some last => (s.cache.mem.lookup last).map fun prev =>
          { s with cache := { s.cache with mem := s.cache.mem.insert last ⟨prev.value, cell.next⟩ }, freethis := some here }
    else some { s with last := some here }

def Sweep.advance (here : Addr) (s : Sweep) : Option Sweep :=
  (s.cache.mem.lookup here).map fun cell => { s with here := cell.next }

def Sweep.turn (dnsexpire : Int32) (now : Time) (here : Addr) (s : Sweep) : Option Sweep :=
  s.freeTagged.bind fun s => (s.examine dnsexpire now here).bind (Sweep.advance here)

/-- The loop, for at most so many turns. -/
def sweepLoop (dnsexpire : Int32) (now : Time) : Nat → Sweep → Option Sweep
  | 0, _ => none
  | fuel + 1, s =>
      match s.here with
      | none => some s
      | some here => (s.turn dnsexpire now here).bind (sweepLoop dnsexpire now fuel)

def Sweep.logStats (dnslog : Int32) (now : Time) (count : Int32) (s : Sweep) : Cache :=
  if dnslog.toInt64 < now - s.cache.dnslogLastLog then
    { s.cache with
      logged := s.cache.logged ++ [⟨s.cache.cacheHits, s.cache.cacheMisses, s.expired, count, s.cache.dnsentries⟩]
      dnslogLastLog := now }
  else s.cache

/-- Nothing for a read of what has been released, a second release, or a loop that does not end. -/
def expireDns (dnsexpire dnslog : Int32) (now : Time) (cache : Cache) : Option Cache :=
  if cache.dnshead = none then some cache
  else
    let cells := cache.mem.keys.length
    (countFrom cache.mem (cells + 1) cache.dnshead 0).bind fun count =>
      (sweepLoop dnsexpire now (cells + 1) ⟨cache, cache.dnshead, none, none, 0⟩).bind fun s =>
        s.freeLast.map (Sweep.logStats dnslog now count)

/-! ### Insertion -/

/-- What the resolver gives, `struct hostent`. -/
structure Hostent where
  hName : CStr
  hAddrtype : Int32
  hLength : Int32
  hAddr : List UInt8
  deriving DecidableEq, Repr

/-- The entry that `do_my_gethostbyname` makes. `copied` says whether both names could be copied. -/
def newent (hostname : Option CStr) (answer : Option Hostent) (copied : Bool) (now : Time) : Option DnsEntry :=
  match hostname, answer, copied with
  | some hostname, some hp, true =>
      some ⟨hostname, some ⟨hp.hName, hp.hAddrtype, hp.hLength, hp.hAddr.take hp.hLength.toInt.toNat⟩, now⟩
  | _, _, _ => none

/-- `do_my_gethostbyname`. What it had allocated when a name cannot be copied, it gives back. -/
def doMyGethostbyname (malloc : Allocator Addr DnsEntry) (hostname : Option CStr) (answer : Option Hostent) (copied : Bool)
    (now : Time) (cache : Cache) : Option MyHostent × Cache :=
  match newent hostname answer copied now with
  | none => (none, cache)
  | some e =>
      let a := malloc.pick cache.mem
      (e.hp, { cache with
        mem := cache.mem.insert a ⟨e, cache.dnshead⟩
        dnshead := some a
        cacheMisses := cache.cacheMisses + 1
        dnsentries := cache.dnsentries + 1 })

/-- The search of `my_gethostbyname`: the entry of the name, if there is one. -/
def search (mem : Memory Addr DnsEntry) (hostname : CStr) : Nat → Option Addr → Option (Option DnsEntry)
  | 0, _ => none
  | _ + 1, none => some none
  | fuel + 1, some here => (mem.lookup here).bind fun cell =>
      if cell.value.hostname = hostname then some (some cell.value) else search mem hostname fuel cell.next

def myGethostbyname (malloc : Allocator Addr DnsEntry) (hostname : CStr) (answer : Option Hostent) (copied : Bool)
    (now : Time) (cache : Cache) : Option (Option MyHostent × Cache) :=
  (search cache.mem hostname (cache.mem.keys.length + 1) cache.dnshead).map fun
    | some e => (e.hp, { cache with cacheHits := cache.cacheHits + 1 })
    | none => doMyGethostbyname malloc (some hostname) answer copied now cache

/-! ### Runs -/

/-- A call, with what the resolver, the memory and the clock have for it. -/
inductive DnsCall where
  | resolve (hostname : Option CStr) (answer : Option Hostent) (copied : Bool) (now : Time)
  | expire (dnsexpire dnslog : Int32) (now : Time)
  deriving DecidableEq, Repr

def step (malloc : Allocator Addr DnsEntry) (cache : Cache) : DnsCall → Option Cache
  | .resolve hostname answer copied now => some (doMyGethostbyname malloc hostname answer copied now cache).2
  | .expire dnsexpire dnslog now => expireDns dnsexpire dnslog now cache

def run (malloc : Allocator Addr DnsEntry) (calls : List DnsCall) : Option Cache := calls.foldlM (step malloc) Cache.start

/-- A pass that does not find the entry too old. -/
def DnsCall.Spares (e : DnsEntry) : DnsCall → Prop
  | .resolve _ _ _ _ => True
  | .expire dnsexpire _ now => now - e.lastquery ≤ dnsexpire.toInt64

instance (e : DnsEntry) : DecidablePred (DnsCall.Spares e)
  | .resolve _ _ _ _ => isTrue trivial
  | .expire dnsexpire _ now => inferInstanceAs (Decidable (now - e.lastquery ≤ dnsexpire.toInt64))

/-- At every one of these passes the entry is not too old. -/
def Outlasts (later : List DnsCall) (e : DnsEntry) : Prop := ∀ call ∈ later, call.Spares e

instance (later : List DnsCall) : DecidablePred (Outlasts later) := fun e =>
  inferInstanceAs (Decidable (∀ call ∈ later, call.Spares e))

/-- The entries that have come and have outlasted every pass since, the newest first. -/
def survivors : List DnsCall → List DnsEntry
  | [] => []
  | .resolve hostname answer copied now :: later =>
      survivors later ++ (newent hostname answer copied now).toList.filter fun e => Outlasts later e
  | .expire _ _ _ :: later => survivors later

/-! ### What holds of the list -/

/-- The list has these cells, they are all that is allocated, and they are counted. -/
structure Holds (cache : Cache) (cells : List (Addr × DnsEntry)) : Prop where
  links : Links cache.mem cache.dnshead cells
  distinct : (addresses cells).Nodup
  allocated : ∀ a, a ∈ cache.mem ↔ a ∈ addresses cells
  owned : ∀ c ∈ cells, c.2.hp.isSome = true
  entries : cache.dnsentries = Int32.ofNat cells.length

theorem holds_start : Holds Cache.start [] where
  links := rfl
  distinct := List.nodup_nil
  allocated _ := iff_of_false (AList.notMem_empty _) List.not_mem_nil
  owned := nofun
  entries := rfl

section holds

variable {cache : Cache} {cells : List (Addr × DnsEntry)}

/-- There are as many addresses in use as the list has cells. -/
theorem Holds.length_keys (h : Holds cache cells) : cache.mem.keys.length = cells.length := by
  have hperm : cache.mem.keys.Perm (addresses cells) :=
    (List.perm_ext_iff_of_nodup cache.mem.keys_nodup h.distinct).mpr h.allocated
  rw [hperm.length_eq, addresses, List.length_map]

theorem isSome_newent {hostname : Option CStr} {answer : Option Hostent} {copied : Bool} {now : Time} {e : DnsEntry}
    (h : newent hostname answer copied now = some e) : e.hp.isSome = true := by
  unfold newent at h
  split at h
  · obtain rfl := Option.some.inj h
    rfl
  · exact nomatch h

/-- An insertion puts the new entry in front. -/
theorem Holds.resolve (h : Holds cache cells) (malloc : Allocator Addr DnsEntry) (hostname : Option CStr)
    (answer : Option Hostent) (copied : Bool) (now : Time) :
    Holds (doMyGethostbyname malloc hostname answer copied now cache).2
      ((newent hostname answer copied now).toList.map (fun e => (malloc.pick cache.mem, e)) ++ cells) := by
  rw [doMyGethostbyname]
  cases hnew : newent hostname answer copied now with
  | none => exact h
  | some e =>
      have hfresh : malloc.pick cache.mem ∉ addresses cells := fun hmem =>
        malloc.fresh cache.mem ((h.allocated _).mpr hmem)
      exact {
        links := h.links.push hfresh e
        distinct := List.nodup_cons.mpr ⟨hfresh, h.distinct⟩
        allocated := fun a => by
          dsimp only
          rw [AList.mem_insert, h.allocated]
          exact List.mem_cons.symm
        owned := fun c hc => by
          obtain rfl | hc := List.mem_cons.mp hc
          · exact isSome_newent hnew
          · exact h.owned c hc
        entries := by
          dsimp only
          rw [h.entries]
          exact (Int32.ofNat_add cells.length 1).symm }

theorem search_eq {mem : Memory Addr DnsEntry} {head : Option Addr} (h : Links mem head cells) (hostname : CStr) {fuel : Nat}
    (hfuel : cells.length < fuel) :
    search mem hostname fuel head = some ((cells.map Prod.snd).find? fun e => e.hostname = hostname) := by
  induction cells generalizing head fuel with
  | nil =>
      obtain rfl : head = none := h
      cases fuel with
      | zero => exact absurd hfuel (Nat.not_lt_zero _)
      | succ fuel => rfl
  | cons cell rest ih =>
      obtain ⟨rfl, next, hread, hrest⟩ := h
      cases fuel with
      | zero => exact absurd hfuel (Nat.not_lt_zero _)
      | succ fuel =>
          rw [search, hread, Option.bind_some, List.map_cons]
          dsimp only
          by_cases hname : cell.2.hostname = hostname
          · rw [if_pos hname, List.find?_cons_of_pos (by simp [hname])]
          · rw [if_neg hname, List.find?_cons_of_neg (by simp [hname]), ih hrest (Nat.lt_of_succ_lt_succ hfuel)]

/-- A name that is in the list is answered from there, and any other is resolved. -/
theorem Holds.lookup (h : Holds cache cells) (malloc : Allocator Addr DnsEntry) (hostname : CStr) (answer : Option Hostent)
    (copied : Bool) (now : Time) :
    myGethostbyname malloc hostname answer copied now cache =
      some (match (cells.map Prod.snd).find? fun e => e.hostname = hostname with
        | some e => (e.hp, { cache with cacheHits := cache.cacheHits + 1 })
        | none => doMyGethostbyname malloc (some hostname) answer copied now cache) := by
  have hfuel : cells.length < cache.mem.keys.length + 1 := by
    rw [h.length_keys]
    exact Nat.lt_succ_self _
  rw [myGethostbyname, search_eq h.links hostname hfuel, Option.map_some]

end holds

/-! ### One pass -/

theorem countFrom_eq {mem : Memory Addr DnsEntry} {head : Option Addr} {cells : List (Addr × DnsEntry)}
    (h : Links mem head cells) (count : Int32) {fuel : Nat} (hfuel : cells.length < fuel) :
    countFrom mem fuel head count = some (count + Int32.ofNat cells.length) := by
  induction cells generalizing head count fuel with
  | nil =>
      obtain rfl : head = none := h
      cases fuel with
      | zero => exact absurd hfuel (Nat.not_lt_zero _)
      | succ fuel =>
          rw [countFrom, List.length_nil]
          exact congrArg some (Int32.add_zero count).symm
  | cons cell rest ih =>
      obtain ⟨rfl, next, hread, hrest⟩ := h
      cases fuel with
      | zero => exact absurd hfuel (Nat.not_lt_zero _)
      | succ fuel =>
          rw [countFrom, hread, Option.bind_some, ih hrest _ (Nat.lt_of_succ_lt_succ hfuel), List.length_cons,
            Int32.ofNat_add, Int32.add_assoc, Int32.add_comm 1]
          rfl

/-- In a turn of the loop: what it has kept, what it has not seen, and the entry that is out of the list and not yet
released. As many as there were at first are expired or still counted. -/
structure Swept (total : Nat) (log : List DnsStats) (tagged : Option (Addr × DnsEntry)) (kept rest : List (Addr × DnsEntry))
    (s : Sweep) : Prop where
  links : Links s.cache.mem s.cache.dnshead (kept ++ rest)
  last : s.last = kept.getLast?.map Prod.fst
  freethis : s.freethis = tagged.map Prod.fst
  distinct : (addresses (tagged.toList ++ (kept ++ rest))).Nodup
  allocated : ∀ a, a ∈ s.cache.mem ↔ a ∈ addresses (tagged.toList ++ (kept ++ rest))
  owned : ∀ c ∈ tagged.toList ++ (kept ++ rest), c.2.hp.isSome = true
  unlinked : ∀ t ∈ tagged, ∃ next, s.cache.mem.lookup t.1 = some ⟨t.2, next⟩
  entries : s.cache.dnsentries = Int32.ofNat (tagged.toList ++ (kept ++ rest)).length
  balance : s.expired + s.cache.dnsentries = Int32.ofNat total
  logged : s.cache.logged = log

section turn

variable {total : Nat} {log : List DnsStats} {tagged : Option (Addr × DnsEntry)} {kept rest : List (Addr × DnsEntry)}
  {s : Sweep} {dnsexpire : Int32} {now : Time} {a : Addr} {e : DnsEntry}

/-- What a release leaves, whichever of the two it is. -/
theorem Swept.released (h : Swept total log tagged kept rest s) {t : Addr × DnsEntry} (htagged : tagged = some t) :
    Swept total log none kept rest { s with
      cache := { s.cache with mem := s.cache.mem.erase t.1, dnsentries := s.cache.dnsentries - 1 }
      freethis := none
      expired := s.expired + 1 } := by
  subst htagged
  have hnot : t.1 ∉ addresses (kept ++ rest) := (List.nodup_cons.mp h.distinct).1
  exact {
    links := h.links.erase_of_notMem hnot
    last := h.last
    freethis := rfl
    distinct := (List.nodup_cons.mp h.distinct).2
    allocated := fun a => by
      dsimp only
      rw [AList.mem_erase, h.allocated]
      constructor
      · rintro ⟨hne, hmem⟩
        exact (List.mem_cons.mp hmem).resolve_left hne
      · intro hmem
        refine ⟨?_, List.mem_cons_of_mem _ hmem⟩
        rintro rfl
        exact hnot hmem
    owned := fun c hc => h.owned c (List.mem_cons_of_mem _ hc)
    unlinked := nofun
    entries := by
      have hentries := h.entries
      rw [Option.toList_some, List.singleton_append, List.length_cons, Int32.ofNat_add] at hentries
      dsimp only
      rw [hentries]
      exact Int32.add_sub_cancel _ _
    balance := by
      have hbalance := h.balance
      dsimp only
      rw [← hbalance]
      grind
    logged := h.logged }

theorem Swept.freeTagged (h : Swept total log tagged kept rest s) :
    ∃ s', s.freeTagged = some s' ∧ Swept total log none kept rest s' := by
  rw [Sweep.freeTagged, h.freethis]
  cases htagged : tagged with
  | none =>
      subst htagged
      exact ⟨s, rfl, h⟩
  | some t =>
      obtain ⟨next, hread⟩ := h.unlinked t htagged
      have howned : t.2.hp.isSome = true := h.owned t (by simp [htagged])
      refine ⟨_, by rw [Option.map_some]; dsimp only; rw [hread, Option.map_some], ?_⟩
      dsimp only
      rw [if_pos howned]
      exact h.released htagged

theorem Swept.freeLast (h : Swept total log tagged kept rest s) :
    ∃ s', s.freeLast = some s' ∧ Swept total log none kept rest s' := by
  rw [Sweep.freeLast, h.freethis]
  cases htagged : tagged with
  | none =>
      subst htagged
      exact ⟨s, rfl, h⟩
  | some t =>
      obtain ⟨next, hread⟩ := h.unlinked t htagged
      refine ⟨_, by rw [Option.map_some]; dsimp only; rw [hread, Option.map_some], ?_⟩
      exact h.released htagged

/-- An entry leaves the list and is tagged; only the links in memory change. -/
theorem Swept.tag (h : Swept total log none kept ((a, e) :: rest) s) {mem : Memory Addr DnsEntry} {dnshead : Option Addr}
    (hlinks : Links mem dnshead (kept ++ rest)) (hmem : ∀ c, c ∈ mem ↔ c ∈ s.cache.mem)
    (hread : ∃ next, mem.lookup a = some ⟨e, next⟩) :
    Swept total log (some (a, e)) kept rest
      { s with cache := { s.cache with mem := mem, dnshead := dnshead }, freethis := some a } := by
  have hperm : (kept ++ (a, e) :: rest).Perm ((a, e) :: (kept ++ rest)) := List.perm_middle
  have haddresses : (addresses (kept ++ (a, e) :: rest)).Perm (addresses ((a, e) :: (kept ++ rest))) := hperm.map Prod.fst
  exact {
    links := hlinks
    last := h.last
    freethis := rfl
    distinct := haddresses.nodup_iff.mp h.distinct
    allocated := fun c => (hmem c).trans ((h.allocated c).trans haddresses.mem_iff)
    owned := fun c hc => h.owned c (hperm.mem_iff.mpr hc)
    unlinked := fun t ht => by
      obtain rfl := Option.some.inj ht
      exact hread
    entries := h.entries.trans (congrArg Int32.ofNat hperm.length_eq)
    balance := h.balance
    logged := h.logged }

theorem Swept.examine_old (h : Swept total log none kept ((a, e) :: rest) s) (hold : tooOld dnsexpire now e = true) :
    ∃ s' next, s.examine dnsexpire now a = some s' ∧ Swept total log (some (a, e)) kept rest s' ∧
      s'.cache.mem.lookup a = some ⟨e, next⟩ ∧ Links s'.cache.mem next rest := by
  obtain ⟨next, hread, hrest⟩ := links_append h.links
  rw [Sweep.examine, hread, Option.bind_some, if_pos hold]
  obtain rfl | ⟨before, ⟨b, w⟩, rfl⟩ := kept.eq_nil_or_concat'
  · -- the first of the list
    have hhead : s.cache.dnshead ≠ none := by
      rw [h.links.head_eq]
      exact Option.some_ne_none a
    have htagged := h.tag (h.links.unlink_head hread) (fun _ => Iff.rfl) ⟨next, hread⟩
    split
    next =>
      refine ⟨_, next, rfl, ?_, hread, hrest⟩
      rw [if_pos hhead]
      exact htagged
    next last hlast => exact nomatch h.last.symm.trans hlast
  · have hlinks : Links s.cache.mem s.cache.dnshead (before ++ (b, w) :: (a, e) :: rest) := by
      have hlinks := h.links
      rwa [List.append_assoc] at hlinks
    have hdistinct : (addresses (before ++ (b, w) :: (a, e) :: rest)).Nodup := by
      have hdistinct := h.distinct
      rwa [Option.toList_none, List.nil_append, List.append_assoc] at hdistinct
    have hb : b ∉ addresses ((a, e) :: rest) := by
      rw [addresses_append] at hdistinct
      exact (List.nodup_cons.mp (List.nodup_append.mp hdistinct).2.1).1
    have hne : a ≠ b := fun heq => hb (heq ▸ List.mem_cons_self)
    obtain ⟨next', hprev, -⟩ := links_append hlinks
    have hshort : Links (s.cache.mem.insert b ⟨w, next⟩) s.cache.dnshead (before ++ [(b, w)] ++ rest) := by
      rw [List.append_assoc]
      exact hlinks.unlink hdistinct hread
    have hin : b ∈ s.cache.mem := by
      rw [← AList.lookup_isSome, hprev]
      rfl
    have hmem : ∀ c, c ∈ s.cache.mem.insert b ⟨w, next⟩ ↔ c ∈ s.cache.mem := by
      intro c
      rw [AList.mem_insert]
      exact or_iff_right_of_imp fun heq => heq ▸ hin
    have hread' : (s.cache.mem.insert b ⟨w, next⟩).lookup a = some ⟨e, next⟩ :=
      (AList.lookup_insert_ne hne).trans hread
    have htagged := h.tag hshort hmem ⟨next, hread'⟩
    split
    next hlast =>
      rw [h.last, List.getLast?_concat] at hlast
      exact nomatch hlast
    next last hlast =>
      rw [h.last, List.getLast?_concat] at hlast
      obtain rfl := Option.some.inj hlast
      rw [hprev, Option.map_some]
      refine ⟨_, next, rfl, htagged, hread', ?_⟩
      exact hrest.insert_of_notMem (fun hmem => hb (List.mem_cons_of_mem _ hmem)) _

theorem Swept.examine_young (h : Swept total log none kept ((a, e) :: rest) s) (hyoung : tooOld dnsexpire now e = false) :
    ∃ s' next, s.examine dnsexpire now a = some s' ∧ Swept total log none (kept ++ [(a, e)]) rest s' ∧
      s'.cache.mem.lookup a = some ⟨e, next⟩ ∧ Links s'.cache.mem next rest := by
  obtain ⟨next, hread, hrest⟩ := links_append h.links
  rw [Sweep.examine, hread, Option.bind_some, hyoung, if_neg Bool.false_ne_true]
  have hsplit : kept ++ [(a, e)] ++ rest = kept ++ (a, e) :: rest := List.append_assoc _ _ _
  refine ⟨_, next, rfl, ?_, hread, hrest⟩
  exact {
    links := hsplit ▸ h.links
    last := by rw [List.getLast?_concat]; rfl
    freethis := h.freethis
    distinct := hsplit ▸ h.distinct
    allocated := hsplit ▸ h.allocated
    owned := hsplit ▸ h.owned
    unlinked := h.unlinked
    entries := hsplit ▸ h.entries
    balance := h.balance
    logged := h.logged }

variable (dnsexpire now) in
/-- A turn releases what the last one has tagged, and tags or keeps the entry it is at. -/
theorem Swept.turn (h : Swept total log tagged kept ((a, e) :: rest) s) :
    ∃ s', s.turn dnsexpire now a = some s' ∧ s'.here = rest.head?.map Prod.fst ∧
      if tooOld dnsexpire now e then Swept total log (some (a, e)) kept rest s'
        else Swept total log none (kept ++ [(a, e)]) rest s' := by
  obtain ⟨freed, hfreed, h⟩ := h.freeTagged
  rw [Sweep.turn, hfreed, Option.bind_some]
  cases hage : tooOld dnsexpire now e with
  | true =>
      obtain ⟨s', next, hexamine, h, hread, hrest⟩ := h.examine_old hage
      rw [hexamine, Option.bind_some, Sweep.advance, hread, Option.map_some]
      exact ⟨_, rfl, hrest.head_eq, { h with }⟩
  | false =>
      obtain ⟨s', next, hexamine, h, hread, hrest⟩ := h.examine_young hage
      rw [hexamine, Option.bind_some, Sweep.advance, hread, Option.map_some]
      exact ⟨_, rfl, hrest.head_eq, { h with }⟩

variable (dnsexpire now) in
/-- The loop keeps the entries that are not too old. -/
theorem Swept.sweepLoop (h : Swept total log tagged kept rest s) (hhere : s.here = rest.head?.map Prod.fst) {fuel : Nat}
    (hfuel : rest.length < fuel) :
    ∃ s' tagged', DnsCache.sweepLoop dnsexpire now fuel s = some s' ∧
      Swept total log tagged' (kept ++ rest.filter fun c => !tooOld dnsexpire now c.2) [] s' := by
  induction rest generalizing s tagged kept fuel with
  | nil =>
      cases fuel with
      | zero => exact absurd hfuel (Nat.not_lt_zero _)
      | succ fuel =>
          rw [DnsCache.sweepLoop, hhere, List.filter_nil, List.append_nil]
          exact ⟨s, tagged, rfl, h⟩
  | cons c rest ih =>
      cases fuel with
      | zero => exact absurd hfuel (Nat.not_lt_zero _)
      | succ fuel =>
          have hfuel := Nat.lt_of_succ_lt_succ hfuel
          obtain ⟨s', hturn, hhere', hnext⟩ := h.turn dnsexpire now
          have hloop : DnsCache.sweepLoop dnsexpire now (fuel + 1) s = DnsCache.sweepLoop dnsexpire now fuel s' := by
            rw [DnsCache.sweepLoop, hhere, List.head?_cons, Option.map_some]
            dsimp only
            rw [hturn, Option.bind_some]
          rw [hloop]
          cases hage : tooOld dnsexpire now c.2 with
          | true =>
              rw [if_pos hage] at hnext
              rw [List.filter_cons_of_neg (by simp [hage])]
              exact ih hnext hhere' hfuel
          | false =>
              rw [if_neg (by simp [hage])] at hnext
              rw [List.filter_cons_of_pos (by simp [hage])]
              obtain ⟨s'', tagged', heq, h''⟩ := ih hnext hhere' hfuel
              rw [List.append_assoc] at h''
              exact ⟨s'', tagged', heq, h''⟩

end turn

/-- A line of the log with how many entries there were and how many there are. -/
def DnsStats.Tells (before after : Nat) (stats : DnsStats) : Prop :=
  stats.count = Int32.ofNat before ∧ stats.entries = Int32.ofNat after ∧ stats.expired + stats.entries = stats.count

theorem Sweep.logStats_eq (dnslog : Int32) (now : Time) (count : Int32) (s : Sweep) :
    (s.logStats dnslog now count).mem = s.cache.mem ∧ (s.logStats dnslog now count).dnshead = s.cache.dnshead ∧
      (s.logStats dnslog now count).dnsentries = s.cache.dnsentries := by
  rw [Sweep.logStats]
  split <;> exact ⟨rfl, rfl, rfl⟩

/-- A pass comes to its end and leaves the entries that are not too old. What it logs is how many there were and are. -/
theorem Holds.expire {cache : Cache} {cells : List (Addr × DnsEntry)} (h : Holds cache cells) (dnsexpire dnslog : Int32)
    (now : Time) :
    ∃ cache', expireDns dnsexpire dnslog now cache = some cache' ∧
      Holds cache' (cells.filter fun c => !tooOld dnsexpire now c.2) ∧
      ∀ stats ∈ cache'.logged, stats ∈ cache.logged ∨
        stats.Tells cells.length (cells.filter fun c => !tooOld dnsexpire now c.2).length := by
  rw [expireDns]
  by_cases hempty : cache.dnshead = none
  · rw [if_pos hempty]
    have hcells : cells = [] := by
      have hhead := h.links.head_eq
      rw [hempty, eq_comm, Option.map_eq_none_iff, List.head?_eq_none_iff] at hhead
      exact hhead
    subst hcells
    exact ⟨cache, rfl, h, fun stats hstats => Or.inl hstats⟩
  · rw [if_neg hempty]
    have hfuel : cells.length < cache.mem.keys.length + 1 := by
      rw [h.length_keys]
      exact Nat.lt_succ_self _
    have hstart : Swept cells.length cache.logged none [] cells ⟨cache, cache.dnshead, none, none, 0⟩ := {
      links := h.links
      last := rfl
      freethis := rfl
      distinct := h.distinct
      allocated := h.allocated
      owned := h.owned
      unlinked := nofun
      entries := h.entries
      balance := (Int32.zero_add _).trans h.entries
      logged := rfl }
    obtain ⟨swept, tagged, hloop, hswept⟩ := hstart.sweepLoop dnsexpire now h.links.head_eq hfuel
    obtain ⟨last, hfree, hlast⟩ := hswept.freeLast
    rw [List.nil_append] at hlast
    generalize cells.filter (fun c => !tooOld dnsexpire now c.2) = left at hlast ⊢
    have hleft : left ++ [] = left := List.append_nil left
    dsimp only
    rw [countFrom_eq h.links 0 hfuel, Option.bind_some, hloop, Option.bind_some, hfree, Option.map_some, Int32.zero_add]
    obtain ⟨hmem, hhead, hentries⟩ := last.logStats_eq dnslog now (Int32.ofNat cells.length)
    have hcount : last.cache.dnsentries = Int32.ofNat left.length := by
      rw [hlast.entries, Option.toList_none, List.nil_append, hleft]
    refine ⟨_, rfl, ?_, fun stats hstats => ?_⟩
    · exact {
        links := by
          rw [hmem, hhead]
          exact hleft ▸ hlast.links
        distinct := hleft ▸ hlast.distinct
        allocated := fun a => by
          rw [hmem]
          exact hleft ▸ hlast.allocated a
        owned := hleft ▸ hlast.owned
        entries := hentries.trans hcount }
    · rw [Sweep.logStats, ← hlast.logged] at *
      split at hstats
      · obtain hold | hnew := List.mem_append.mp hstats
        · exact Or.inl hold
        · obtain rfl := List.mem_singleton.mp hnew
          exact Or.inr ⟨rfl, hcount, hlast.balance⟩
      · exact Or.inl hstats

/-! ### Runs -/

theorem not_tooOld {dnsexpire : Int32} {now : Time} {e : DnsEntry} :
    (!tooOld dnsexpire now e) = true ↔ now - e.lastquery ≤ dnsexpire.toInt64 := by
  rw [tooOld, Bool.not_eq_true', decide_eq_false_iff_not, Int64.not_lt]

/-- An entry that outlasts a pass and those after it is not too old in the pass. -/
theorem filter_outlasts (dnsexpire dnslog : Int32) (now : Time) (later : List DnsCall) (entries : List DnsEntry) :
    (entries.filter fun e => !tooOld dnsexpire now e).filter (fun e => Outlasts later e) =
      entries.filter fun e => Outlasts (.expire dnsexpire dnslog now :: later) e := by
  rw [List.filter_filter]
  refine List.filter_congr fun e _ => ?_
  rw [Bool.eq_iff_iff, Bool.and_eq_true, not_tooOld, decide_eq_true_eq, decide_eq_true_eq, Outlasts, Outlasts,
    List.forall_mem_cons, and_comm]
  rfl

/-- What a run from a list on leaves. -/
theorem Holds.calls {cache : Cache} {cells : List (Addr × DnsEntry)} (malloc : Allocator Addr DnsEntry) (h : Holds cache cells)
    (calls : List DnsCall) :
    ∃ cache' cells', calls.foldlM (step malloc) cache = some cache' ∧ Holds cache' cells' ∧
      cells'.map Prod.snd = survivors calls ++ (cells.map Prod.snd).filter fun e => Outlasts calls e := by
  induction calls generalizing cache cells with
  | nil =>
      refine ⟨cache, cells, rfl, h, ?_⟩
      rw [survivors, List.nil_append, List.filter_eq_self.mpr fun e _ => decide_eq_true (show Outlasts [] e from nofun)]
  | cons call later ih =>
      rw [List.foldlM_cons]
      cases call with
      | resolve hostname answer copied now =>
          obtain ⟨cache', cells', hrun, hend, hcells⟩ := ih (h.resolve malloc hostname answer copied now)
          refine ⟨cache', cells', hrun, hend, ?_⟩
          have hsame : ∀ e, Outlasts (.resolve hostname answer copied now :: later) e ↔ Outlasts later e := fun e =>
            List.forall_mem_cons.trans (and_iff_right trivial)
          rw [hcells, survivors, List.append_assoc, List.map_append, List.filter_append, List.map_map]
          simp only [hsame, Function.comp_def, List.map_id_fun', id_eq]
      | expire dnsexpire dnslog now =>
          obtain ⟨passed, hpass, hpassed, -⟩ := h.expire dnsexpire dnslog now
          obtain ⟨cache', cells', hrun, hend, hcells⟩ := ih hpassed
          refine ⟨cache', cells', ?_, hend, ?_⟩
          · rw [step, hpass]
            exact hrun
          · have hfilter : (cells.filter fun c => !tooOld dnsexpire now c.2).map Prod.snd =
                (cells.map Prod.snd).filter fun e => !tooOld dnsexpire now e := by
              rw [List.filter_map]
              rfl
            rw [hcells, survivors, ← filter_outlasts, hfilter]

/-- After any calls the list is there, and its entries are those that have come and outlasted every pass since, the newest
first. No two of its cells are the same, they are exactly what is allocated, and they are counted. -/
theorem cached_run (malloc : Allocator Addr DnsEntry) (calls : List DnsCall) :
    ∃ cache cells, run malloc calls = some cache ∧ Links cache.mem cache.dnshead cells ∧
      cells.map Prod.snd = survivors calls ∧ (addresses cells).Nodup ∧
      (∀ a, Reaches cache.mem cache.dnshead a ↔ a ∈ cache.mem) ∧ cache.dnsentries = Int32.ofNat cells.length := by
  obtain ⟨cache, cells, hrun, hend, hcells⟩ := holds_start.calls malloc calls
  refine ⟨cache, cells, hrun, hend.links, ?_, hend.distinct, fun a => ?_, hend.entries⟩
  · rw [hcells, List.map_nil, List.filter_nil, List.append_nil]
  · exact hend.links.reaches_iff.trans (hend.allocated a).symm

/-- Of four names that came, the two newest and the oldest are too old: the first two of the list and the last. -/
example :
    (run (Allocator.above DnsEntry) [.resolve (some ['a']) (some ⟨[], 2, 4, [10, 0, 0, 1]⟩) true 0,
      .resolve (some ['b']) (some ⟨[], 2, 4, [10, 0, 0, 2]⟩) true 90, .resolve (some ['c']) none true 90,
      .resolve (some ['d']) (some ⟨[], 2, 4, [10, 0, 0, 3]⟩) true 10,
      .resolve (some ['e']) (some ⟨[], 2, 4, [10, 0, 0, 4]⟩) true 20, .expire 50 900 100]).map
        (fun cache => (cache.mem.keys, cache.dnshead, cache.dnsentries)) = some ([2], some 2, 1) := by decide

end Sysmon.DnsCache
