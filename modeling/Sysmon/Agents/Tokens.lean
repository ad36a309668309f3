import Mathlib.Logic.Function.Basic
import Sysmon.Fleet.Get
import Sysmon.Fleet.Uplink
import Sysmon.Lib.Run

/-!
# Agent tokens

The `agents` bucket of `settings/agents.go`: one JSON record for each site, with the hash of the
token that was minted last. Five operations rewrite the record, and they decode it in three ways: as
the struct, as a map of raw members, and as a map of any values. A record is known here by the members
of its JSON object. A transaction that cannot be committed leaves the store as it was.
-/

namespace Sysmon.Agents

open Fleet GoText

abbrev GoString := List UInt8

/-- Whether a string is among others, decided along the list. -/
abbrev decidableMemStrings (s : GoString) (strings : List GoString) : Decidable (s ∈ strings) :=
  decidable_of_iff (∃ other ∈ strings, other = s) (by simp)

/-- Nanoseconds since the year 1: the zero time is 0. -/
abbrev Time := Nat

/-- A string as it stands in a JSON text. -/
structure JsonText where
  bytes : GoString
  valid : jsonText bytes = bytes

def JsonText.of (s : GoString) : JsonText := ⟨jsonText s, jsonText_jsonText s⟩

/-- A member of a record. A time is a string in the text, and known by the time it stands for. -/
inductive Value where
  | text (text : JsonText)
  | bool (b : Bool)
  | time (time : Time)

inductive Key where
  | site
  | label
  | kind
  | credentialId
  | created
  | lastSeen
  | lastAddr
  | revoked
  | hash
  deriving DecidableEq, Repr

inductive Blob where
  | unreadable
  | object (members : Key → Option Value)

/-- The bucket. -/
abbrev Store := GoString → Option Blob

/-! ### Three decodings -/

structure AgentToken where
  site : GoString
  label : GoString
  kind : GoString
  credentialId : GoString
  created : Time
  lastSeen : Time
  lastAddr : GoString
  revoked : Bool
  deriving DecidableEq, Repr

/-- The struct that is stored, with the hash beside the record. -/
structure Stored extends AgentToken where
  hash : GoString
  deriving DecidableEq, Repr

def readText : Option Value → Option GoString
  | none => some []
  | some (.text t) => some t.bytes
  | some _ => none

def readBool : Option Value → Option Bool
  | none => some false
  | some (.bool b) => some b
  | some _ => none

def readTime : Option Value → Option Time
  | none => some 0
  | some (.time t) => some t
  | some _ => none

/-- `json.Unmarshal` into an `AgentToken`. -/
def unmarshal : Blob → Option AgentToken
  | .unreadable => none
  | .object members => do
      let site ← readText (members .site)
      let label ← readText (members .label)
      let kind ← readText (members .kind)
      let credentialId ← readText (members .credentialId)
      let created ← readTime (members .created)
      let lastSeen ← readTime (members .lastSeen)
      let lastAddr ← readText (members .lastAddr)
      let revoked ← readBool (members .revoked)
      some { site, label, kind, credentialId, created, lastSeen, lastAddr, revoked }

/-- `json.Unmarshal` into the struct with the hash. -/
def unmarshalStored : Blob → Option Stored
  | .unreadable => none
  | .object members => do
      let token ← unmarshal (.object members)
      let hash ← readText (members .hash)
      some { token with hash }

def omitEmpty (s : GoString) : Option Value := if s = [] then none else some (.text (.of s))

/-- `json.Marshal`: `omitempty` leaves out an empty string and a `false`, and no time. -/
def marshal (r : Stored) : Blob :=
  .object fun
    | .site => some (.text (.of r.site))
    | .label => omitEmpty r.label
    | .kind => omitEmpty r.kind
    | .credentialId => omitEmpty r.credentialId
    | .created => some (.time r.created)
    | .lastSeen => some (.time r.lastSeen)
    | .lastAddr => omitEmpty r.lastAddr
    | .revoked => if r.revoked then some (.bool true) else none
    | .hash => some (.text (.of r.hash))

/-! ### Operations -/

def maxKeySize : Nat := 32768

/-- `Bucket.Put`. -/
def Store.put (s : Store) (site : GoString) (blob : Blob) : Option Store :=
  if site = [] ∨ maxKeySize < site.length then none else some (Function.update s site (some blob))

/-- `DB.Update`: what the function did, if it made no error and the transaction is committed. -/
def Store.update {α : Type} (s : Store) (commits : Bool) (body : Option (Store × α)) : Store × Option α :=
  match body with
  | some (s', a) => if commits then (s', some a) else (s, none)
  | none => (s, none)

def kindSysmond : GoString := ascii "sysmond"

def kindAlerter : GoString := ascii "alerter"

/-- `hex.EncodeToString`. -/
def hexString (bytes : List UInt8) : GoString := (hexText bytes).map fun c => UInt8.ofNat c.toNat

def hashToken (sha : List UInt8 → Digest) (token : GoString) : GoString := hexString (sha token).bytes

/-- What a mint draws: the token and the epoch, and the time of day. -/
structure Draw where
  raw : List UInt8
  epoch : List UInt8
  now : Time
  deriving DecidableEq, Repr

def Draw.token (draw : Draw) : GoString := hexString draw.raw

def freshRecord (sha : List UInt8 → Digest) (site label kind : GoString) (draw : Draw) : Stored where
  site := site
  label := label
  kind := kind
  credentialId := hexString draw.epoch
  created := draw.now
  lastSeen := 0
  lastAddr := []
  revoked := false
  hash := hashToken sha draw.token

/-- The transaction of a mint. -/
def mintTx (sha : List UInt8 → Digest) (s : Store) (site label kind : GoString) (replace : Bool)
    (draw : Draw) : Option (Store × GoString) :=
  if !replace && (s site).any fun existing => (unmarshal existing).all fun old => !old.revoked then none
  else (s.put site (marshal (freshRecord sha site label kind draw))).map (·, draw.token)

/-- `MintAgentToken`: the token, unless it fails. -/
def mintAgentToken (sha : List UInt8 → Digest) (s : Store) (site label kind : GoString) (replace : Bool)
    (draw : Draw) (commits : Bool) : Store × Option GoString :=
  if kind ≠ kindSysmond ∧ kind ≠ kindAlerter then (s, none)
  else s.update commits (mintTx sha s site label kind replace draw)

def checkTx (sha : List UInt8 → Digest) (s : Store) (site token addr : GoString) (now : Time) :
    Option (Store × Option GoString) :=
  match s site with
  | none => some (s, none)
  | some blob =>
      match unmarshalStored blob with
      | none => none
      | some stored =>
          if stored.revoked then some (s, none)
          else if stored.hash ≠ hashToken sha token then some (s, none)
          else
            (s.put site (marshal { stored with lastSeen := now, lastAddr := addr })).map
              (·, some stored.credentialId)

/-- `CheckAgentToken`: the epoch of the token, or none if it may not claim the site. -/
def checkAgentToken (sha : List UInt8 → Digest) (s : Store) (site token addr : GoString) (now : Time)
    (commits : Bool) : Store × Option (Option GoString) :=
  s.update commits (checkTx sha s site token addr now)

/-- The text of a member, empty if there is none or it is none. -/
def textOr : Option Value → GoString
  | some (.text t) => t.bytes
  | _ => []

def claimTx (s : Store) (site kind : GoString) : Option (Store × GoString) :=
  match s site with
  | none => some (s, [])
  | some .unreadable => none
  | some (.object members) =>
      if textOr (members .kind) = kind then some (s, [])
      else if textOr (members .kind) ≠ [] then some (s, textOr (members .kind))
      else (s.put site (.object (Function.update members .kind (some (.text (.of kind)))))).map (·, [])

/-- `ClaimAgentKind`: the kind that owns the token, empty if the claim stands. -/
def claimAgentKind (s : Store) (site kind : GoString) (commits : Bool) : Store × Option GoString :=
  s.update commits (claimTx s site kind)

/-- A member of an existing record is set or deleted, and the map is written back. -/
def setMemberTx (s : Store) (site : GoString) (key : Key) (value : Option Value) :
    Blob → Option (Store × Unit)
  | .unreadable => none
  | .object members => (s.put site (.object (Function.update members key value))).map (·, ())

/-- `SetAgentLabel`. A record that is missing stays missing. -/
def setAgentLabel (s : Store) (site label : GoString) (commits : Bool) : Store × Option Unit :=
  s.update commits <|
    match s site with
    | none => some (s, ())
    | some blob => setMemberTx s site .label (omitEmpty label) blob

/-- `RevokeAgentToken`. A record that is missing is an error. -/
def revokeAgentToken (s : Store) (site : GoString) (commits : Bool) : Store × Option Unit :=
  s.update commits ((s site).bind (setMemberTx s site .revoked (some (.bool true))))

/-- `GetAgentToken`: the record of a site, if there is one that can be read. -/
def getAgentToken (s : Store) (site : GoString) : Option Stored := (s site).bind unmarshalStored

/-! ### Runs -/

inductive Op where
  | mint (site label kind : GoString) (replace : Bool) (draw : Draw) (commits : Bool)
  | check (site token addr : GoString) (now : Time) (commits : Bool)
  | claim (site kind : GoString) (commits : Bool)
  | setLabel (site label : GoString) (commits : Bool)
  | revoke (site : GoString) (commits : Bool)
  deriving DecidableEq, Repr

inductive Answer where
  | failed
  | minted (token : GoString)
  | checked (epoch : Option GoString)
  | claimed (owner : GoString)
  | done
  deriving DecidableEq, Repr

def Op.site : Op → GoString
  | .mint site .. | .check site .. | .claim site .. | .setLabel site .. | .revoke site .. => site

def Op.run (sha : List UInt8 → Digest) (s : Store) : Op → Store × Answer
  | .mint site label kind replace draw commits =>
      (mintAgentToken sha s site label kind replace draw commits).map id
        fun answer => answer.elim .failed .minted
  | .check site token addr now commits =>
      (checkAgentToken sha s site token addr now commits).map id fun answer => answer.elim .failed .checked
  | .claim site kind commits =>
      (claimAgentKind s site kind commits).map id fun answer => answer.elim .failed .claimed
  | .setLabel site label commits =>
      (setAgentLabel s site label commits).map id fun answer => answer.elim .failed fun _ => .done
  | .revoke site commits =>
      (revokeAgentToken s site commits).map id fun answer => answer.elim .failed fun _ => .done

def Op.step (sha : List UInt8 → Digest) (s : Store) (op : Op) : Store := (op.run sha s).1

/-- A bucket with no records. -/
def emptyStore : Store := fun _ => none

def after (sha : List UInt8 → Digest) (ops : List Op) : Store := Run.exec (Op.step sha) emptyStore ops

/-- What is asked, with what is answered. -/
def transcript (sha : List UInt8 → Digest) : Store → List Op → List (Op × Answer)
  | _, [] => []
  | s, op :: ops => (op, (op.run sha s).2) :: transcript sha (op.step sha s) ops

/-- The token of a site after one more entry: a mint that succeeds gives it one, a revoke takes it. -/
def noteToken (site : GoString) (live : Option GoString) : Op × Answer → Option GoString
  | (.mint site' .., .minted token) => if site' = site then some token else live
  | (.revoke site' _, .done) => if site' = site then none else live
  | _ => live

/-- The token that the last successful mint of the site returned, if no revoke came after it. -/
def liveToken (sha : List UInt8 → Digest) (site : GoString) (ops : List Op) : Option GoString :=
  (transcript sha emptyStore ops).foldl (noteToken site) none

/-! ### Records through JSON -/

/-- What is read of a record that was written. -/
def Stored.written (r : Stored) : Stored :=
  { r with
    site := jsonText r.site
    label := jsonText r.label
    kind := jsonText r.kind
    credentialId := jsonText r.credentialId
    lastAddr := jsonText r.lastAddr
    hash := jsonText r.hash }

theorem readText_omitEmpty (s : GoString) : readText (omitEmpty s) = some (jsonText s) := by
  rw [omitEmpty]
  split
  next hempty =>
    subst hempty
    rfl
  next => rfl

theorem readBool_omit (b : Bool) : readBool (if b then some (.bool true) else none) = some b := by
  cases b <;> rfl

theorem unmarshalStored_marshal (r : Stored) : unmarshalStored (marshal r) = some r.written := by
  have hsite : readText (some (.text (.of r.site))) = some (jsonText r.site) := rfl
  have hhash : readText (some (.text (.of r.hash))) = some (jsonText r.hash) := rfl
  have hcreated : readTime (some (.time r.created)) = some r.created := rfl
  have hseen : readTime (some (.time r.lastSeen)) = some r.lastSeen := rfl
  simp only [marshal, unmarshalStored, unmarshal, hsite, hhash, hcreated, hseen, readText_omitEmpty,
    readBool_omit, Option.bind_eq_bind, Option.bind_some, Stored.written]

/-- A record is read from an object exactly when each of its members is. -/
theorem unmarshalStored_eq_some {members : Key → Option Value} {r : Stored} :
    unmarshalStored (.object members) = some r ↔
      readText (members .site) = some r.site ∧ readText (members .label) = some r.label ∧
        readText (members .kind) = some r.kind ∧
        readText (members .credentialId) = some r.credentialId ∧
        readTime (members .created) = some r.created ∧ readTime (members .lastSeen) = some r.lastSeen ∧
        readText (members .lastAddr) = some r.lastAddr ∧ readBool (members .revoked) = some r.revoked ∧
        readText (members .hash) = some r.hash := by
  obtain ⟨⟨site, label, kind, credentialId, created, lastSeen, lastAddr, revoked⟩, hash⟩ := r
  simp only [unmarshalStored, unmarshal, Option.bind_eq_bind, Option.bind_eq_some_iff, Option.some.injEq]
  constructor
  · rintro ⟨token, ⟨_, h1, _, h2, _, h3, _, h4, _, h5, _, h6, _, h7, _, h8, rfl⟩, _, h9, heq⟩
    simp only [Stored.mk.injEq, AgentToken.mk.injEq] at heq
    obtain ⟨⟨rfl, rfl, rfl, rfl, rfl, rfl, rfl, rfl⟩, rfl⟩ := heq
    exact ⟨h1, h2, h3, h4, h5, h6, h7, h8, h9⟩
  · rintro ⟨h1, h2, h3, h4, h5, h6, h7, h8, h9⟩
    exact ⟨_, ⟨_, h1, _, h2, _, h3, _, h4, _, h5, _, h6, _, h7, _, h8, rfl⟩, _, h9, rfl⟩

theorem jsonText_readText {value : Option Value} {s : GoString} (h : readText value = some s) :
    jsonText s = s := by
  cases value with
  | none =>
      obtain rfl := Option.some.inj h
      rfl
  | some v =>
      cases v with
      | text t =>
          obtain rfl := Option.some.inj h
          exact t.valid
      | bool b => exact absurd h (by simp [readText])
      | time t => exact absurd h (by simp [readText])

/-- A record that was read is written as it is. -/
theorem written_of_read {blob : Blob} {r : Stored} (h : unmarshalStored blob = some r) :
    r.written = r := by
  cases blob with
  | unreadable => exact absurd h (by simp [unmarshalStored])
  | object members =>
      obtain ⟨hsite, hlabel, hkind, hepoch, -, -, haddr, -, hhash⟩ := unmarshalStored_eq_some.mp h
      simp only [Stored.written, jsonText_readText hsite, jsonText_readText hlabel,
        jsonText_readText hkind, jsonText_readText hepoch, jsonText_readText haddr,
        jsonText_readText hhash]

theorem byte_hexDigit (n : Nat) : UInt8.ofNat (hexDigit n).toNat < 0x80 := by
  have hall : ∀ k < 16, UInt8.ofNat (hexDigit k).toNat < 0x80 := by decide
  have hmod : hexDigit n = hexDigit (n % 16) := by rw [hexDigit, hexDigit, Nat.mod_mod]
  rw [hmod]
  exact hall _ (Nat.mod_lt n (by decide))

theorem jsonText_hexString (bytes : List UInt8) : jsonText (hexString bytes) = hexString bytes := by
  apply jsonText_of_ascii
  intro b hb
  obtain ⟨c, hc, rfl⟩ := List.mem_map.mp hb
  obtain ⟨byte, -, hdigit⟩ := List.mem_flatMap.mp hc
  simp only [List.mem_cons, List.not_mem_nil, or_false] at hdigit
  obtain rfl | rfl := hdigit
  · exact byte_hexDigit _
  · exact byte_hexDigit _

theorem hexDigit_inj {m n : Nat} (h : UInt8.ofNat (hexDigit m).toNat = UInt8.ofNat (hexDigit n).toNat) :
    m % 16 = n % 16 := by
  have hall : ∀ i < 16, ∀ j < 16,
      UInt8.ofNat (hexDigit i).toNat = UInt8.ofNat (hexDigit j).toNat → i = j := by decide
  have hmod : ∀ k, hexDigit k = hexDigit (k % 16) := fun k => by rw [hexDigit, hexDigit, Nat.mod_mod]
  rw [hmod m, hmod n] at h
  exact hall _ (Nat.mod_lt m (by decide)) _ (Nat.mod_lt n (by decide)) h

theorem hexString_injective : Function.Injective hexString := by
  intro left right h
  induction left generalizing right with
  | nil =>
      cases right with
      | nil => rfl
      | cons b right => exact absurd h (by simp [hexString, hexText])
  | cons a left ih =>
      cases right with
      | nil => exact absurd h (by simp [hexString, hexText])
      | cons b right =>
          have hcons : ∀ (c : UInt8) (rest : List UInt8), hexString (c :: rest) =
              UInt8.ofNat (hexDigit (c.toNat / 16)).toNat ::
                UInt8.ofNat (hexDigit c.toNat).toNat :: hexString rest := fun _ _ => rfl
          rw [hcons, hcons, List.cons.injEq, List.cons.injEq] at h
          obtain ⟨hhigh, hlow, hrest⟩ := h
          have hdiv := hexDigit_inj hhigh
          have hmod := hexDigit_inj hlow
          have ha := a.toNat_lt
          have hb := b.toNat_lt
          have hbyte : a = b := UInt8.toNat_inj.mp (by omega)
          rw [hbyte, ih hrest]

theorem sha_eq_of_hashToken {sha : List UInt8 → Digest} {t m : GoString}
    (h : hashToken sha t = hashToken sha m) : sha t = sha m := by
  have hbytes := hexString_injective h
  cases hl : sha t
  cases hr : sha m
  rw [hl, hr] at hbytes
  simpa using hbytes

/-! ### What each operation can do -/

variable {sha : List UInt8 → Digest} {s : Store} {site label kind token addr : GoString} {now : Time}
  {replace commits : Bool} {draw : Draw}

theorem update_eq {α : Type} (body : Option (Store × α)) :
    s.update commits body = (s, none) ∨ ∃ next, body = some next ∧ s.update commits body = (next.1, some next.2) := by
  cases body with
  | none => exact Or.inl rfl
  | some next =>
      cases commits with
      | false => exact Or.inl rfl
      | true => exact Or.inr ⟨next, rfl, rfl⟩

theorem put_eq_some {blob : Blob} {s' : Store} (h : s.put site blob = some s') :
    s' = Function.update s site (some blob) := by
  rw [Store.put] at h
  split at h
  · exact absurd h (by simp)
  · exact (Option.some.inj h).symm

/-- A key that `Put` takes. -/
def KeyFits (site : GoString) : Prop := site ≠ [] ∧ site.length ≤ maxKeySize

theorem keyFits_of_put {blob : Blob} {s' : Store} (h : s.put site blob = some s') : KeyFits site := by
  rw [Store.put] at h
  split at h
  · exact absurd h (by simp)
  next hfits => exact ⟨fun hnil => hfits (Or.inl hnil), Nat.le_of_not_lt fun hlong => hfits (Or.inr hlong)⟩

theorem put_of_keyFits (h : KeyFits site) (blob : Blob) :
    s.put site blob = some (Function.update s site (some blob)) := by
  rw [Store.put, if_neg]
  rintro (hnil | hlong)
  · exact h.1 hnil
  · exact absurd h.2 (Nat.not_le_of_lt hlong)

/-- The site has a record, and nothing says that it is revoked. -/
def Occupied (s : Store) (site : GoString) : Prop :=
  ∃ blob, s site = some blob ∧ ∀ old, unmarshal blob = some old → old.revoked = false

theorem mint_cases :
    mintAgentToken sha s site label kind replace draw commits = (s, none) ∨
      (replace = false → ¬Occupied s site) ∧ KeyFits site ∧
        mintAgentToken sha s site label kind replace draw commits =
          (Function.update s site (some (marshal (freshRecord sha site label kind draw))),
            some draw.token) := by
  rw [mintAgentToken]
  split
  next => exact Or.inl rfl
  next =>
    refine (update_eq _).imp_right ?_
    rintro ⟨next, hbody, heq⟩
    rw [mintTx] at hbody
    split at hbody
    next => exact absurd hbody (by simp)
    next hfree =>
      obtain ⟨s', hput, rfl⟩ := Option.map_eq_some_iff.mp hbody
      refine ⟨?_, ?_, ?_⟩
      · rintro rfl ⟨blob, hblob, hold⟩
        apply hfree
        rw [hblob, Bool.not_false, Bool.true_and, Option.any_some]
        cases hread : unmarshal blob with
        | none => rfl
        | some old => simp [hold old hread]
      · exact keyFits_of_put hput
      · rw [heq, put_eq_some hput]

theorem check_cases :
    (checkAgentToken sha s site token addr now commits).1 = s ∧
        (∀ epoch, (checkAgentToken sha s site token addr now commits).2 ≠ some (some epoch)) ∨
      ∃ stored, getAgentToken s site = some stored ∧ stored.revoked = false ∧
        stored.hash = hashToken sha token ∧
        checkAgentToken sha s site token addr now commits =
          (Function.update s site (some (marshal { stored with lastSeen := now, lastAddr := addr })),
            some (some stored.credentialId)) := by
  rw [checkAgentToken]
  obtain heq | ⟨next, hbody, heq⟩ := update_eq (checkTx sha s site token addr now)
  · rw [heq]
    exact Or.inl ⟨rfl, by simp⟩
  · rw [heq]
    rw [checkTx] at hbody
    split at hbody
    next =>
      obtain rfl := Option.some.inj hbody
      exact Or.inl ⟨rfl, by simp⟩
    next blob hblob =>
      split at hbody
      next => exact absurd hbody (by simp)
      next stored hread =>
        split at hbody
        next =>
          obtain rfl := Option.some.inj hbody
          exact Or.inl ⟨rfl, by simp⟩
        next hrevoked =>
          split at hbody
          next =>
            obtain rfl := Option.some.inj hbody
            exact Or.inl ⟨rfl, by simp⟩
          next hhash =>
            obtain ⟨s', hput, rfl⟩ := Option.map_eq_some_iff.mp hbody
            refine Or.inr ⟨stored, ?_, eq_false_of_ne_true hrevoked, not_not.mp hhash, ?_⟩
            · rw [getAgentToken, hblob]
              exact hread
            · rw [put_eq_some hput]

theorem claim_cases :
    (claimAgentKind s site kind commits).1 = s ∨
      ∃ members, s site = some (.object members) ∧ textOr (members .kind) = [] ∧
        claimAgentKind s site kind commits =
          (Function.update s site
            (some (.object (Function.update members .kind (some (.text (.of kind)))))), some []) := by
  rw [claimAgentKind]
  obtain heq | ⟨next, hbody, heq⟩ := update_eq (claimTx s site kind)
  · rw [heq]
    exact Or.inl rfl
  · rw [heq]
    rw [claimTx] at hbody
    split at hbody
    next =>
      obtain rfl := Option.some.inj hbody
      exact Or.inl rfl
    next => exact absurd hbody (by simp)
    next members hmembers =>
      split at hbody
      next =>
        obtain rfl := Option.some.inj hbody
        exact Or.inl rfl
      next =>
        split at hbody
        next =>
          obtain rfl := Option.some.inj hbody
          exact Or.inl rfl
        next hempty =>
          obtain ⟨s', hput, rfl⟩ := Option.map_eq_some_iff.mp hbody
          exact Or.inr ⟨members, hmembers, not_not.mp hempty, by rw [put_eq_some hput]⟩

theorem setMemberTx_cases {key : Key} {value : Option Value} {blob : Blob} {next : Store × Unit}
    (h : setMemberTx s site key value blob = some next) :
    ∃ members, blob = .object members ∧
      next.1 = Function.update s site (some (.object (Function.update members key value))) := by
  cases blob with
  | unreadable => exact absurd h (by simp [setMemberTx])
  | object members =>
      obtain ⟨s', hput, rfl⟩ := Option.map_eq_some_iff.mp h
      exact ⟨members, rfl, put_eq_some hput⟩

theorem label_cases :
    (setAgentLabel s site label commits).1 = s ∨
      ∃ members, s site = some (.object members) ∧
        (setAgentLabel s site label commits).1 = Function.update s site
          (some (.object (Function.update members .label (omitEmpty label)))) := by
  rw [setAgentLabel]
  cases hblob : s site with
  | none =>
      left
      obtain heq | ⟨next, hbody, heq⟩ := update_eq (some (s, ()))
      · rw [heq]
      · rw [heq, ← Option.some.inj hbody]
  | some blob =>
      dsimp only
      obtain heq | ⟨next, hbody, heq⟩ :=
        update_eq (setMemberTx s site .label (omitEmpty label) blob)
      · rw [heq]
        exact Or.inl rfl
      · rw [heq]
        obtain ⟨members, rfl, hnext⟩ := setMemberTx_cases hbody
        exact Or.inr ⟨members, rfl, hnext⟩

theorem revoke_cases :
    revokeAgentToken s site commits = (s, none) ∨
      ∃ members, s site = some (.object members) ∧
        revokeAgentToken s site commits = (Function.update s site
          (some (.object (Function.update members .revoked (some (.bool true))))), some ()) := by
  rw [revokeAgentToken]
  obtain heq | ⟨next, hbody, heq⟩ :=
    update_eq ((s site).bind (setMemberTx s site .revoked (some (.bool true))))
  · exact Or.inl heq
  · obtain ⟨blob, hblob, htx⟩ := Option.bind_eq_some_iff.mp hbody
    obtain ⟨members, rfl, hnext⟩ := setMemberTx_cases htx
    exact Or.inr ⟨members, hblob, by rw [heq, hnext]⟩

/-! ### What is known of a record -/

theorem getAgentToken_of_get {members : Key → Option Value} {r : Stored} (h : getAgentToken s site = some r)
    (hblob : s site = some (.object members)) : unmarshalStored (.object members) = some r := by
  rwa [getAgentToken, hblob] at h

theorem getAgentToken_update (s : Store) (site : GoString) (blob : Blob) :
    getAgentToken (Function.update s site (some blob)) site = unmarshalStored blob := by
  rw [getAgentToken, Function.update_self]
  rfl

theorem unmarshalStored_kind {members : Key → Option Value} {r : Stored}
    (h : unmarshalStored (.object members) = some r) (kind : GoString) :
    unmarshalStored (.object (Function.update members .kind (some (.text (.of kind))))) =
      some { r with kind := jsonText kind } := by
  rw [unmarshalStored_eq_some] at h ⊢
  obtain ⟨h1, h2, -, h4, h5, h6, h7, h8, h9⟩ := h
  exact ⟨h1, h2, rfl, h4, h5, h6, h7, h8, h9⟩

theorem unmarshalStored_label {members : Key → Option Value} {r : Stored}
    (h : unmarshalStored (.object members) = some r) (label : GoString) :
    unmarshalStored (.object (Function.update members .label (omitEmpty label))) =
      some { r with label := jsonText label } := by
  rw [unmarshalStored_eq_some] at h ⊢
  obtain ⟨h1, -, h3, h4, h5, h6, h7, h8, h9⟩ := h
  exact ⟨h1, readText_omitEmpty label, h3, h4, h5, h6, h7, h8, h9⟩

theorem unmarshalStored_revoked {members : Key → Option Value} {r : Stored}
    (h : unmarshalStored (.object members) = some r) :
    unmarshalStored (.object (Function.update members .revoked (some (.bool true)))) =
      some { r with revoked := true } := by
  rw [unmarshalStored_eq_some] at h ⊢
  obtain ⟨h1, h2, h3, h4, h5, h6, h7, -, h9⟩ := h
  exact ⟨h1, h2, h3, h4, h5, h6, h7, rfl, h9⟩

theorem unmarshal_of_stored {blob : Blob} {r : Stored} (h : unmarshalStored blob = some r) :
    unmarshal blob = some r.toAgentToken := by
  cases blob with
  | unreadable => exact absurd h (by simp [unmarshalStored])
  | object members =>
      simp only [unmarshalStored, Option.bind_eq_bind, Option.bind_eq_some_iff, Option.some.injEq] at h
      obtain ⟨token, htoken, hash, -, rfl⟩ := h
      exact htoken

/-- An operation leaves the records of other sites. -/
theorem step_other (op : Op) {other : GoString} (h : other ≠ op.site) :
    op.step sha s other = s other := by
  cases op with
  | mint site label kind replace draw commits =>
      simp only [Op.step, Op.run, Prod.map_fst, id_eq]
      obtain heq | ⟨-, -, heq⟩ := mint_cases
      · rw [heq]
      · rw [heq]
        exact Function.update_of_ne h _ _
  | check site token addr now commits =>
      simp only [Op.step, Op.run, Prod.map_fst, id_eq]
      obtain ⟨heq, -⟩ | ⟨stored, -, -, -, heq⟩ := check_cases
      · rw [heq]
      · rw [heq]
        exact Function.update_of_ne h _ _
  | claim site kind commits =>
      simp only [Op.step, Op.run, Prod.map_fst, id_eq]
      obtain heq | ⟨members, -, -, heq⟩ := claim_cases
      · rw [heq]
      · rw [heq]
        exact Function.update_of_ne h _ _
  | setLabel site label commits =>
      simp only [Op.step, Op.run, Prod.map_fst, id_eq]
      obtain heq | ⟨members, -, heq⟩ := label_cases
      · rw [heq]
      · rw [heq]
        exact Function.update_of_ne h _ _
  | revoke site commits =>
      simp only [Op.step, Op.run, Prod.map_fst, id_eq]
      obtain heq | ⟨members, -, heq⟩ := revoke_cases
      · rw [heq]
      · rw [heq]
        exact Function.update_of_ne h _ _

/-- What an operation makes of a record that can be read. -/
inductive Rewrites (sha : List UInt8 → Digest) (op : Op) (r : Stored) : Stored → Prop
  | same : Rewrites sha op r r
  | minted (site label kind : GoString) (replace : Bool) (draw : Draw) (commits : Bool)
      (h : op = .mint site label kind replace draw commits) :
      Rewrites sha op r (freshRecord sha site label kind draw).written
  | seen (site token addr : GoString) (now : Time) (commits : Bool)
      (h : op = .check site token addr now commits) :
      Rewrites sha op r { r with lastSeen := now, lastAddr := jsonText addr }
  | claimed (site kind : GoString) (commits : Bool) (h : op = .claim site kind commits)
      (hempty : r.kind = []) : Rewrites sha op r { r with kind := jsonText kind }
  | labelled (site label : GoString) (commits : Bool) (h : op = .setLabel site label commits) :
      Rewrites sha op r { r with label := jsonText label }
  | revoked (site : GoString) (commits : Bool) (h : op = .revoke site commits) :
      Rewrites sha op r { r with revoked := true }

theorem textOr_of_readText {value : Option Value} {text : GoString} (h : readText value = some text) :
    textOr value = text := by
  cases value with
  | none => exact Option.some.inj h
  | some v =>
      cases v with
      | text t => exact Option.some.inj h
      | bool b => exact absurd h (by simp [readText])
      | time t => exact absurd h (by simp [readText])

theorem rewrites_step (op : Op) {r : Stored} (h : getAgentToken s op.site = some r) :
    ∃ r', getAgentToken (op.step sha s) op.site = some r' ∧ Rewrites sha op r r' := by
  cases op with
  | mint site label kind replace draw commits =>
      simp only [Op.step, Op.run, Prod.map_fst, id_eq, Op.site] at h ⊢
      obtain heq | ⟨-, -, heq⟩ := mint_cases
      · rw [heq]
        exact ⟨r, h, .same⟩
      · rw [heq, getAgentToken_update, unmarshalStored_marshal]
        exact ⟨_, rfl, .minted _ _ _ _ _ _ rfl⟩
  | check site token addr now commits =>
      simp only [Op.step, Op.run, Prod.map_fst, id_eq, Op.site] at h ⊢
      obtain ⟨heq, -⟩ | ⟨stored, hstored, -, -, heq⟩ := check_cases
      · rw [heq]
        exact ⟨r, h, .same⟩
      · rw [heq, getAgentToken_update, unmarshalStored_marshal]
        obtain rfl := Option.some.inj (hstored.symm.trans h)
        obtain ⟨blob, -, hread⟩ := Option.bind_eq_some_iff.mp h
        refine ⟨_, rfl, ?_⟩
        have hwritten : ({ stored with lastSeen := now, lastAddr := addr } : Stored).written =
            { stored.written with lastSeen := now, lastAddr := jsonText addr } := rfl
        rw [hwritten, written_of_read hread]
        exact .seen _ _ _ _ _ rfl
  | claim site kind commits =>
      simp only [Op.step, Op.run, Prod.map_fst, id_eq, Op.site] at h ⊢
      obtain heq | ⟨members, hblob, hempty, heq⟩ := claim_cases
      · rw [heq]
        exact ⟨r, h, .same⟩
      · have hread := getAgentToken_of_get h hblob
        have hkind : r.kind = [] :=
          (textOr_of_readText (unmarshalStored_eq_some.mp hread).2.2.1).symm.trans hempty
        rw [heq, getAgentToken_update, unmarshalStored_kind hread]
        exact ⟨_, rfl, .claimed _ _ _ rfl hkind⟩
  | setLabel site label commits =>
      simp only [Op.step, Op.run, Prod.map_fst, id_eq, Op.site] at h ⊢
      obtain heq | ⟨members, hblob, heq⟩ := label_cases
      · rw [heq]
        exact ⟨r, h, .same⟩
      · rw [heq, getAgentToken_update, unmarshalStored_label (getAgentToken_of_get h hblob)]
        exact ⟨_, rfl, .labelled _ _ _ rfl⟩
  | revoke site commits =>
      simp only [Op.step, Op.run, Prod.map_fst, id_eq, Op.site] at h ⊢
      obtain heq | ⟨members, hblob, heq⟩ := revoke_cases
      · rw [heq]
        exact ⟨r, h, .same⟩
      · rw [heq, getAgentToken_update, unmarshalStored_revoked (getAgentToken_of_get h hblob)]
        exact ⟨_, rfl, .revoked _ _ rfl⟩

/-! ### The last mint -/

/-- The record of a site whose token is known: it holds the hash of a live token, and without one
there is no record or a revoked one. -/
def Tracks (sha : List UInt8 → Digest) (s : Store) (site : GoString) : Option GoString → Prop
  | some t => KeyFits site ∧
      ∃ r, getAgentToken s site = some r ∧ r.revoked = false ∧ r.hash = hashToken sha t
  | none => s site = none ∨ ∃ r, getAgentToken s site = some r ∧ r.revoked = true

theorem Tracks.congr {s' : Store} {live : Option GoString} (hsame : s' site = s site)
    (h : Tracks sha s site live) : Tracks sha s' site live := by
  have hget : getAgentToken s' site = getAgentToken s site := by
    rw [getAgentToken, getAgentToken, hsame]
  cases live with
  | none =>
      rw [Tracks, hsame, hget]
      exact h
  | some t =>
      rw [Tracks, hget]
      exact h

/-- A record there is can be read. -/
theorem Tracks.read {live : Option GoString} (h : Tracks sha s site live) {blob : Blob}
    (hblob : s site = some blob) : ∃ r, getAgentToken s site = some r := by
  cases live with
  | none =>
      obtain hnone | ⟨r, hread, -⟩ := h
      · exact absurd (hblob.symm.trans hnone) (by simp)
      · exact ⟨r, hread⟩
  | some t =>
      obtain ⟨-, r, hread, -⟩ := h
      exact ⟨r, hread⟩

/-- A record that keeps its hash and its mark says the same of the token. -/
theorem Tracks.of_record {s' : Store} {live : Option GoString} {r r' : Stored}
    (h : Tracks sha s site live) (hget : getAgentToken s site = some r)
    (hget' : getAgentToken s' site = some r') (hrevoked : r'.revoked = r.revoked)
    (hhash : r'.hash = r.hash) : Tracks sha s' site live := by
  cases live with
  | none =>
      refine Or.inr ⟨r', hget', ?_⟩
      obtain hnone | ⟨found, hfound, hmark⟩ := h
      · rw [getAgentToken, hnone] at hget
        exact absurd hget (by simp)
      · rw [hrevoked, Option.some.inj (hget.symm.trans hfound), hmark]
  | some t =>
      obtain ⟨hfits, found, hfound, hmark, hheld⟩ := h
      have hsame := Option.some.inj (hget.symm.trans hfound)
      exact ⟨hfits, r', hget', by rw [hrevoked, hsame, hmark], by rw [hhash, hsame, hheld]⟩

theorem noteToken_of_ne {live : Option GoString} (op : Op) (answer : Answer) (h : site ≠ op.site) :
    noteToken site live (op, answer) = live := by
  cases op with
  | mint site' label kind replace draw commits =>
      cases answer <;> simp only [noteToken]
      exact if_neg (Ne.symm h)
  | revoke site' commits =>
      cases answer <;> simp only [noteToken]
      exact if_neg (Ne.symm h)
  | check | claim | setLabel => rfl

/-- Where there is no record, only a mint writes one. -/
theorem step_of_none (op : Op) (h : s op.site = none)
    (hmint : ∀ site label kind replace draw commits, op ≠ .mint site label kind replace draw commits) :
    op.step sha s = s := by
  have hnever : ∀ blob, s op.site ≠ some blob := fun blob hblob => absurd (hblob.symm.trans h) (by simp)
  cases op with
  | mint site label kind replace draw commits => exact absurd rfl (hmint _ _ _ _ _ _)
  | check site token addr now commits =>
      simp only [Op.step, Op.run, Prod.map_fst, id_eq]
      obtain ⟨heq, -⟩ | ⟨stored, hstored, -, -, -⟩ := check_cases
      · exact heq
      · obtain ⟨blob, hblob, -⟩ := Option.bind_eq_some_iff.mp hstored
        exact absurd hblob (hnever blob)
  | claim site kind commits =>
      simp only [Op.step, Op.run, Prod.map_fst, id_eq]
      obtain heq | ⟨members, hblob, -, -⟩ := claim_cases
      · exact heq
      · exact absurd hblob (hnever _)
  | setLabel site label commits =>
      simp only [Op.step, Op.run, Prod.map_fst, id_eq]
      obtain heq | ⟨members, hblob, -⟩ := label_cases
      · exact heq
      · exact absurd hblob (hnever _)
  | revoke site commits =>
      simp only [Op.step, Op.run, Prod.map_fst, id_eq]
      obtain heq | ⟨members, hblob, -⟩ := revoke_cases
      · rw [heq]
      · exact absurd hblob (hnever _)

/-- An operation that is neither a mint nor a revoke does not touch the token. -/
theorem tracks_keep {live : Option GoString} (op : Op) (h : Tracks sha s op.site live)
    (hmint : ∀ site label kind replace draw commits, op ≠ .mint site label kind replace draw commits)
    (hrevoke : ∀ site commits, op ≠ .revoke site commits) : Tracks sha (op.step sha s) op.site live := by
  cases hblob : s op.site with
  | none => exact h.congr (congrFun (step_of_none op hblob hmint) op.site)
  | some blob =>
      obtain ⟨r, hget⟩ := h.read hblob
      obtain ⟨r', hget', hrewrites⟩ := rewrites_step op hget
      refine h.of_record hget hget' ?_ ?_ <;> cases hrewrites with
      | minted _ _ _ _ _ _ hop => exact absurd hop (hmint _ _ _ _ _ _)
      | revoked _ _ hop => exact absurd hop (hrevoke _ _)
      | _ => rfl

theorem tracks_mint {live : Option GoString} (h : Tracks sha s site live) :
    Tracks sha ((Op.mint site label kind replace draw commits).step sha s) site
      (noteToken site live (.mint site label kind replace draw commits,
        ((Op.mint site label kind replace draw commits).run sha s).2)) := by
  simp only [Op.step, Op.run, Prod.map_fst, Prod.map_snd, id_eq]
  obtain heq | ⟨-, hfits, heq⟩ := mint_cases
  · rw [heq]
    exact h
  · rw [heq]
    simp only [Option.elim_some, noteToken, if_pos]
    refine ⟨hfits, (freshRecord sha site label kind draw).written, ?_, rfl, ?_⟩
    · rw [getAgentToken_update, unmarshalStored_marshal]
    · exact jsonText_hexString _

theorem tracks_revoke {live : Option GoString} (h : Tracks sha s site live) :
    Tracks sha ((Op.revoke site commits).step sha s) site
      (noteToken site live (.revoke site commits, ((Op.revoke site commits).run sha s).2)) := by
  simp only [Op.step, Op.run, Prod.map_fst, Prod.map_snd, id_eq]
  obtain heq | ⟨members, hblob, heq⟩ := revoke_cases
  · rw [heq]
    exact h
  · obtain ⟨r, hget⟩ := h.read hblob
    rw [heq]
    simp only [Option.elim_some, noteToken, if_pos]
    refine Or.inr ⟨{ r with revoked := true }, ?_, rfl⟩
    rw [getAgentToken_update, unmarshalStored_revoked (getAgentToken_of_get hget hblob)]

theorem tracks_step {live : Option GoString} (op : Op) (h : Tracks sha s site live) :
    Tracks sha (op.step sha s) site (noteToken site live (op, (op.run sha s).2)) := by
  by_cases hsite : site = op.site
  case neg =>
    rw [noteToken_of_ne op _ hsite]
    exact h.congr (step_other op hsite)
  subst hsite
  cases op with
  | mint site label kind replace draw commits => exact tracks_mint h
  | revoke site commits => exact tracks_revoke h
  | check | claim | setLabel => exact tracks_keep _ h (by simp) (by simp)

theorem tracks_run (ops : List Op) {live : Option GoString} (h : Tracks sha s site live) :
    Tracks sha (Run.exec (Op.step sha) s ops) site
      ((transcript sha s ops).foldl (noteToken site) live) := by
  induction ops generalizing s live with
  | nil => exact h
  | cons op ops ih => exact ih (tracks_step op h)

theorem tracks_after (sha : List UInt8 → Digest) (site : GoString) (ops : List Op) :
    Tracks sha (after sha ops) site (liveToken sha site ops) := tracks_run ops (Or.inl rfl)

/-- With a store that works, a token is taken exactly when its hash is that of the live token. -/
theorem check_succeeds_iff {live : Option GoString} (h : Tracks sha s site live) (t addr : GoString)
    (now : Time) :
    (∃ epoch, (checkAgentToken sha s site t addr now true).2 = some (some epoch)) ↔
      ∃ m, live = some m ∧ hashToken sha t = hashToken sha m := by
  constructor
  · rintro ⟨epoch, hepoch⟩
    obtain ⟨-, hfails⟩ | ⟨stored, hget, hmark, hhash, -⟩ := check_cases
    · exact absurd hepoch (hfails epoch)
    · cases live with
      | none =>
          obtain hnone | ⟨r, hr, hrevoked⟩ := h
          · rw [getAgentToken, hnone] at hget
            exact absurd hget (by simp)
          · rw [Option.some.inj (hr.symm.trans hget), hmark] at hrevoked
            exact absurd hrevoked (by simp)
      | some m =>
          obtain ⟨-, r, hr, -, hheld⟩ := h
          rw [Option.some.inj (hr.symm.trans hget), hhash] at hheld
          exact ⟨m, rfl, hheld⟩
  · rintro ⟨m, rfl, hsame⟩
    obtain ⟨hfits, r, hget, hmark, hheld⟩ := h
    obtain ⟨blob, hblob, hread⟩ := Option.bind_eq_some_iff.mp hget
    refine ⟨r.credentialId, ?_⟩
    simp only [checkAgentToken, checkTx, hblob, hread, hmark, hheld, hsame, put_of_keyFits hfits,
      Bool.false_eq_true, if_false, ne_eq, not_true_eq_false, Option.map_some, Store.update, if_true]

def Op.draws : Op → Option GoString
  | .mint _ _ _ _ draw _ => some draw.token
  | _ => none

theorem noteToken_eq_some {live : Option GoString} {m : GoString} {op : Op}
    (h : noteToken site live (op, (op.run sha s).2) = some m) : live = some m ∨ op.draws = some m := by
  cases op with
  | mint site' label kind replace draw commits =>
      simp only [Op.run, Prod.map_snd] at h
      obtain heq | ⟨-, -, heq⟩ := mint_cases
      · rw [heq] at h
        exact Or.inl h
      · rw [heq] at h
        simp only [Option.elim_some, noteToken] at h
        split at h
        · exact Or.inr h
        · exact Or.inl h
  | revoke site' commits =>
      cases hanswer : ((Op.revoke site' commits).run sha s).2 <;> rw [hanswer] at h <;>
        simp only [noteToken] at h
      all_goals first | exact Or.inl h | skip
      split at h
      · exact absurd h (by simp)
      · exact Or.inl h
  | check | claim | setLabel => exact Or.inl h

/-- A live token has been drawn. -/
theorem drawn_of_live {ops : List Op} {live : Option GoString} {m : GoString}
    (h : (transcript sha s ops).foldl (noteToken site) live = some m) :
    live = some m ∨ ∃ op ∈ ops, op.draws = some m := by
  induction ops generalizing s live with
  | nil => exact Or.inl h
  | cons op ops ih =>
      obtain hnote | ⟨later, hmem, hdraws⟩ := ih h
      · obtain hlive | hdraws := noteToken_eq_some hnote
        · exact Or.inl hlive
        · exact Or.inr ⟨op, List.mem_cons_self, hdraws⟩
      · exact Or.inr ⟨later, List.mem_cons_of_mem op hmem, hdraws⟩

/-! ### The laws of the store -/

/-- What a record says of its token. -/
inductive Field where
  | hash
  | epoch
  | kind
  | label
  | revoked
  | sighting
  deriving DecidableEq, Repr

def Stored.Agrees (r r' : Stored) : Field → Prop
  | .hash => r'.hash = r.hash
  | .epoch => r'.credentialId = r.credentialId
  | .kind => r'.kind = r.kind
  | .label => r'.label = r.label
  | .revoked => r'.revoked = r.revoked
  | .sighting => r'.lastSeen = r.lastSeen ∧ r'.lastAddr = r.lastAddr

/-- The fields an operation writes. A mint writes a new record. -/
def Op.names : Op → Field → Bool
  | .mint .., _ => true
  | .check .., field => field = .sighting
  | .claim .., field => field = .kind
  | .setLabel .., field => field = .label
  | .revoke .., field => field = .revoked

theorem Rewrites.agrees {op : Op} {r r' : Stored} (h : Rewrites sha op r r') {field : Field}
    (hfield : op.names field = false) : r.Agrees r' field := by
  cases h with
  | same => cases field <;> first | rfl | exact ⟨rfl, rfl⟩
  | minted _ _ _ _ _ _ hop =>
      subst hop
      exact absurd hfield (by simp [Op.names])
  | seen _ _ _ _ _ hop =>
      subst hop
      cases field <;> first | rfl | exact absurd hfield (by simp [Op.names])
  | claimed _ _ _ hop =>
      subst hop
      cases field <;> first | rfl | exact ⟨rfl, rfl⟩ | exact absurd hfield (by simp [Op.names])
  | labelled _ _ _ hop =>
      subst hop
      cases field <;> first | rfl | exact ⟨rfl, rfl⟩ | exact absurd hfield (by simp [Op.names])
  | revoked _ _ hop =>
      subst hop
      cases field <;> first | rfl | exact ⟨rfl, rfl⟩ | exact absurd hfield (by simp [Op.names])

theorem kind_step {op : Op} {r r' : Stored} (h : Rewrites sha op r r') (hkind : r'.kind ≠ r.kind) :
    (∃ site label kind replace draw commits, op = .mint site label kind replace draw commits) ∨
      r.kind = [] ∧ ∃ site kind commits, op = .claim site kind commits := by
  cases h with
  | minted _ _ _ _ _ _ hop => exact Or.inl ⟨_, _, _, _, _, _, hop⟩
  | claimed _ _ _ hop hempty => exact Or.inr ⟨hempty, _, _, _, hop⟩
  | same | seen | labelled | revoked => exact absurd rfl hkind

theorem not_occupied_of_mint {t : GoString}
    (h : (mintAgentToken sha s site label kind false draw commits).2 = some t) : ¬Occupied s site := by
  obtain heq | ⟨hfree, -, -⟩ := mint_cases
  · rw [heq] at h
    exact absurd h (by simp)
  · exact hfree rfl

theorem record_of_mint {t : GoString}
    (h : (mintAgentToken sha s site label kind replace draw commits).2 = some t) :
    getAgentToken (mintAgentToken sha s site label kind replace draw commits).1 site =
      some (freshRecord sha site label kind draw).written := by
  obtain heq | ⟨-, -, heq⟩ := mint_cases
  · rw [heq] at h
    exact absurd h (by simp)
  · rw [heq, getAgentToken_update, unmarshalStored_marshal]

theorem occupied_of_live {t : GoString} (h : Tracks sha s site (some t)) : Occupied s site := by
  obtain ⟨-, r, hget, hmark, -⟩ := h
  obtain ⟨blob, hblob, hread⟩ := Option.bind_eq_some_iff.mp hget
  refine ⟨blob, hblob, fun old hold => ?_⟩
  rw [← Option.some.inj ((unmarshal_of_stored hread).symm.trans hold)]
  exact hmark

/-- After any operations, with no other string that has the hash of a token that was drawn: a token is
taken exactly when it is the last that was minted for its site and not revoked since; without `replace`
a mint needs a site without a live token. And whatever the store: the kind of a record changes by a mint
or, from empty, by a claim; an operation leaves the records of other sites, and of the record of its
site every field that it does not write. A mint writes all of them: its record has the hash, the epoch,
the kind and the label of the mint, is not revoked and has not been seen. -/
theorem tokenStore_laws (sha : List UInt8 → Digest) (ops : List Op)
    (hsha : ∀ op ∈ ops, ∀ m, op.draws = some m → ∀ t, sha t = sha m → t = m) :
    (∀ site t addr now,
        (∃ epoch, (checkAgentToken sha (after sha ops) site t addr now true).2 = some (some epoch)) ↔
          liveToken sha site ops = some t) ∧
      (∀ site label kind draw commits t,
        (mintAgentToken sha (after sha ops) site label kind false draw commits).2 = some t →
          liveToken sha site ops = none) ∧
      (∀ (s : Store) (op : Op) (r r' : Stored), getAgentToken s op.site = some r →
        getAgentToken (op.step sha s) op.site = some r' → r'.kind ≠ r.kind →
          (∃ site label kind replace draw commits, op = .mint site label kind replace draw commits) ∨
            r.kind = [] ∧ ∃ site kind commits, op = .claim site kind commits) ∧
      (∀ (s : Store) site label kind replace draw commits t,
        (mintAgentToken sha s site label kind replace draw commits).2 = some t →
          getAgentToken (mintAgentToken sha s site label kind replace draw commits).1 site =
            some (freshRecord sha site label kind draw).written) ∧
      ∀ (s : Store) (op : Op),
        (∀ other, other ≠ op.site → op.step sha s other = s other) ∧
          ∀ r, getAgentToken s op.site = some r → ∃ r', getAgentToken (op.step sha s) op.site = some r' ∧
            ∀ field, op.names field = false → r.Agrees r' field := by
  refine ⟨fun site t addr now => ?_, fun site label kind draw commits t hminted => ?_,
    fun s op r r' hget hget' hkind => ?_, fun s site label kind replace draw commits t hminted => ?_,
    fun s op => ⟨fun other hother => step_other op hother, fun r hget => ?_⟩⟩
  · rw [check_succeeds_iff (tracks_after sha site ops) t addr now]
    constructor
    · rintro ⟨m, hlive, hhash⟩
      obtain hnone | ⟨op, hop, hdraws⟩ := drawn_of_live hlive
      · exact absurd hnone (by simp)
      · rw [hlive, hsha op hop m hdraws t (sha_eq_of_hashToken hhash)]
    · intro hlive
      exact ⟨t, hlive, rfl⟩
  · by_contra hlive
    obtain ⟨m, hm⟩ := Option.ne_none_iff_exists'.mp hlive
    have htracks := tracks_after sha site ops
    rw [hm] at htracks
    exact not_occupied_of_mint hminted (occupied_of_live htracks)
  · obtain ⟨found, hfound, hrewrites⟩ := rewrites_step op hget
    rw [Option.some.inj (hget'.symm.trans hfound)] at hkind
    exact kind_step hrewrites hkind
  · exact record_of_mint hminted
  · obtain ⟨r', hget', hrewrites⟩ := rewrites_step op hget
    exact ⟨r', hget', fun field hfield => hrewrites.agrees hfield⟩

/-! ### One site -/

/-- The mint of a token of one byte, for the site `a`. -/
def mintA (raw : UInt8) : Op := .mint [97] [] kindSysmond true ⟨[raw], [raw], 1⟩ true

/-- A hash that tells the first of those tokens from all other strings. -/
def tellsFirst (t : GoString) : Digest :=
  if t = hexString [1] then ⟨List.replicate 32 1, List.length_replicate⟩
  else ⟨List.replicate 32 0, List.length_replicate⟩

theorem token_of_mintA :
    (∃ epoch, (checkAgentToken tellsFirst (after tellsFirst [mintA 1]) [97] (hexString [1]) [] 2 true).2 =
        some (some epoch)) ∧
      ¬∃ epoch, (checkAgentToken tellsFirst (after tellsFirst [mintA 1]) [97] (hexString [2]) [] 2 true).2 =
        some (some epoch) := by
  have hsha : ∀ op ∈ [mintA 1], ∀ m, op.draws = some m → ∀ t, tellsFirst t = tellsFirst m → t = m := by
    intro op hop m hdraws t hsame
    rw [List.mem_singleton.mp hop] at hdraws
    obtain rfl := Option.some.inj hdraws
    by_contra hne
    have hother : tellsFirst t = ⟨List.replicate 32 0, List.length_replicate⟩ := if_neg hne
    rw [hother] at hsame
    exact absurd hsame (by decide)
  have hlaws := (tokenStore_laws tellsFirst [mintA 1] hsha).1 [97]
  have hlive : liveToken tellsFirst [97] [mintA 1] = some (hexString [1]) := by decide
  refine ⟨(hlaws _ [] 2).mpr hlive, fun hother => ?_⟩
  have htwo := (hlaws _ [] 2).mp hother
  rw [hlive] at htwo
  exact absurd htwo (by decide)

/-- A token is seen, and the mint that replaces it forgets when. -/
theorem mint_clears_sighting :
    (getAgentToken (after tellsFirst [mintA 1, .check [97] (hexString [1]) [49] 2 true]) [97]).map
        (fun r => (r.lastSeen, r.lastAddr)) = some (2, [49]) ∧
      (getAgentToken (after tellsFirst [mintA 1, .check [97] (hexString [1]) [49] 2 true, mintA 2]) [97]).map
        (fun r => (r.lastSeen, r.lastAddr)) = some (0, []) := by
  decide

end Sysmon.Agents
