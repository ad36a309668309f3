import Sysmon.Parser.Blocks

/-!
# What one object leaves for the next

Two files with the same directives outside of objects and the same headers differ in the bodies of
their objects only. This module says exactly when the `struct hostinfo` of an object with one body
is the same in both: every variable it is built from must either be set by its own body or have come
out the same of the bodies before it.
-/

namespace Sysmon.Parser

open CText

variable {env : Env} {s left right : Scratch} {shared : Shared}

/-! ### What two such files have in common -/

/-- The same directive outside, or objects with the same header. -/
inductive Block.Similar : Block → Block → Prop
  | outside (token : Token) : Block.Similar (.outside token) (.outside token)
  | object (header : CStr) (left right : List Line) :
      Block.Similar (.object header left) (.object header right)

abbrev SameOutside (left right : List Block) : Prop := List.Forall₂ Block.Similar left right

def Shared.step (shared : Shared) (token : Token) : Shared :=
  match token.rule with
  | .set => shared.set token.yytext
  | .spawns => { shared with inSpawns := true }
  | .spawnDef => shared.spawnDef token.yytext
  | .close => { shared with inSpawns := false }
  | _ => shared

theorem shared_addObject (env : Env) (s : Scratch) : (addObject env s).shared = s.shared := by
  rw [addObject]
  split
  · rfl
  · split <;> rfl

theorem shared_close (env : Env) (s : Scratch) (yytext : CStr) :
    (Token.step env s ⟨.close, yytext⟩).shared = { s.shared with inSpawns := false } := by
  simp only [Token.step]
  split
  case isTrue => rfl
  case isFalse hspawns =>
    rw [shared_addObject, ← eq_false_of_ne_true hspawns]

theorem shared_attr (env : Env) (s : Scratch) (attr : Attr) (yytext : CStr) :
    (attr.step env s yytext).shared = s.shared := by
  cases attr <;> simp only [Attr.step]
  all_goals first | rfl | (split <;> rfl)

theorem shared_token (env : Env) (s : Scratch) (token : Token) :
    (token.step env s).shared = s.shared.step token := by
  obtain ⟨rule, yytext⟩ := token
  cases rule with
  | attr attr => exact shared_attr env s attr yytext
  | close => exact shared_close env s yytext
  | root =>
      simp only [Token.step]
      split <;> rfl
  | sitename =>
      simp only [Token.step]
      repeat' split
      all_goals rfl
  | set | spawns | spawnDef | object => rfl

theorem shared_runBody (env : Env) (s : Scratch) (body : List Line) :
    (runBody env s body).shared = s.shared := by
  induction body generalizing s with
  | nil => rfl
  | cons line body ih =>
      rw [runBody, Run.exec_cons]
      exact (ih _).trans (shared_attr env s line.1 line.2)

/-- The variables and the spawn commands never depend on what stands in an object. -/
theorem shared_eq {leftEnv rightEnv : Env} {before before' : List Block}
    (hsame : SameOutside before before') (hshared : left.shared = right.shared) :
    (Run.exec (Block.step leftEnv) left before).shared =
      (Run.exec (Block.step rightEnv) right before').shared := by
  induction hsame generalizing left right with
  | nil => exact hshared
  | cons hblock _ ih =>
      rw [Run.exec_cons, Run.exec_cons]
      apply ih
      cases hblock with
      | outside token =>
          show (token.step leftEnv left).shared = (token.step rightEnv right).shared
          rw [shared_token, shared_token, hshared]
      | object header body body' =>
          rw [step_object, step_object, shared_close, shared_close, shared_runBody, shared_runBody]
          exact congrArg (fun shared : Shared => { shared with inSpawns := false }) hshared

/-- The snmp type is what the parse began with until a directive sets it, and no name stands for
0. -/
structure SnmpTypeKnown (start : Int32) (s : Scratch) : Prop where
  unset : s.snmpTypeSet = false → s.iSnmpType = start
  isSet : s.snmpTypeSet = true → s.iSnmpType ≠ 0

theorem nameToSnmpType_ne_zero (text : CStr) : nameToSnmpType text ≠ 0 := by
  rw [nameToSnmpType, lookupName]
  split
  case h_1 row hrow =>
    have hmem : row ∈ snmpTypeNames := List.mem_of_find?_eq_some hrow
    have hall : ∀ row ∈ snmpTypeNames, row.2.2 ≠ 0 := by decide
    exact hall row hmem
  case h_2 => decide

variable {start : Int32}

theorem snmpTypeKnown_attr (env : Env) (h : SnmpTypeKnown start s) (attr : Attr) (yytext : CStr) :
    SnmpTypeKnown start (attr.step env s yytext) := by
  cases attr <;> simp only [Attr.step]
  case snmpType =>
    split
    · exact ⟨fun hset => absurd hset (by simp), fun _ => nameToSnmpType_ne_zero _⟩
    · exact h
  all_goals first | exact ⟨h.unset, h.isSet⟩ | (split <;> exact ⟨h.unset, h.isSet⟩)

theorem snmpTypeKnown_token (env : Env) (s : Scratch) (token : Token) (h : SnmpTypeKnown start s) :
    SnmpTypeKnown start (token.step env s) := by
  obtain ⟨rule, yytext⟩ := token
  cases rule with
  | attr attr => exact snmpTypeKnown_attr env h attr yytext
  | close =>
      simp only [Token.step, addObject]
      repeat' split
      all_goals exact ⟨h.unset, h.isSet⟩
  | root | sitename =>
      simp only [Token.step]
      repeat' split
      all_goals exact ⟨h.unset, h.isSet⟩
  | set | spawns | spawnDef | object => exact ⟨h.unset, h.isSet⟩

theorem snmpTypeKnown_yylex (env : Env) (h : SnmpTypeKnown start s) (tokens : List Token) :
    SnmpTypeKnown start (yylex env s tokens) := by
  induction tokens generalizing s with
  | nil => exact h
  | cons token tokens ih =>
      rw [yylex, Run.exec_cons]
      exact ih (snmpTypeKnown_token env s token h)

theorem snmpTypeKnown_runBody (env : Env) (h : SnmpTypeKnown start s) (body : List Line) :
    SnmpTypeKnown start (runBody env s body) := by
  induction body generalizing s with
  | nil => exact h
  | cons line body ih =>
      rw [runBody, Run.exec_cons]
      exact ih (snmpTypeKnown_attr env h line.1 line.2)

/-! ### When the object is the same -/

/-- The strings that `add_object` copies into an object of that type. -/
def Copied (s : Scratch) : StrCell → Prop
  | .secret => s.iType = CheckType.radius
  | .oid => s.iType = CheckType.snmp ∧ s.iSnmpType ≠ snmpReboot
  | .snmpOidSec => s.iType = CheckType.snmp
  | _ => True

/-- Two scratch spaces from which the same object is built. -/
structure SameReadings (env : Env) (left right : Scratch) : Prop where
  str : ∀ c, Copied left c → left.str c = right.str c
  type : left.iType = right.iType
  contactOn : left.when = right.when
  snmpType : left.snmpTypeSet = right.snmpTypeSet ∧ left.iSnmpType = right.iSnmpType
  limit : ∀ l, (left.limit l).getD 0 = (right.limit l).getD 0
  flag : ∀ f, left.flag f = right.flag f
  queuetime : queuetimeOf env left = queuetimeOf env right
  pageinterval : left.objIPageinterval = right.objIPageinterval
  numfailures : left.iSnmpType ≠ snmpReboot → numfailuresOf env left = numfailuresOf env right

def sansId (svc : HostInfo) : HostInfo := { svc with uniqueId := none }

theorem toUInt32_inj {a b : Int32} (h : a.toUInt32 = b.toUInt32) : a = b :=
  Int32.toBitVec.inj (congrArg UInt32.toBitVec h)

theorem asUlong_inj {a b : Int32} (h : asUlong a = asUlong b) : a = b := by
  have h64 : a.toInt64 = b.toInt64 := Int64.toBitVec.inj (congrArg UInt64.toBitVec h)
  have hint : a.toInt64.toInt = b.toInt64.toInt := congrArg Int64.toInt h64
  rw [Int32.toInt_toInt64, Int32.toInt_toInt64] at hint
  exact Int32.toInt_inj.mp hint

theorem snmpType_of_testType (hleft : SnmpTypeKnown start left) (hright : SnmpTypeKnown start right)
    (h : (if left.snmpTypeSet then left.iSnmpType.toUInt32 else 0) =
      if right.snmpTypeSet then right.iSnmpType.toUInt32 else 0) :
    left.snmpTypeSet = right.snmpTypeSet ∧ left.iSnmpType = right.iSnmpType := by
  have hzero : (0 : Int32).toUInt32 = 0 := by decide
  cases hl : left.snmpTypeSet <;> cases hr : right.snmpTypeSet <;>
    simp only [hl, hr, if_true, Bool.false_eq_true, if_false] at h
  · exact ⟨rfl, (hleft.unset hl).trans (hright.unset hr).symm⟩
  · exact absurd (toUInt32_inj (hzero.trans h)).symm (hright.isSet hr)
  · exact absurd (toUInt32_inj (h.trans hzero.symm)) (hleft.isSet hl)
  · exact ⟨rfl, toUInt32_inj h⟩

theorem sansId_hostinfoOf_iff {ids : Nat → CStr} (hleft : SnmpTypeKnown start left)
    (hright : SnmpTypeKnown start right) (hknob : left.knob = right.knob)
    (hport : left.port = right.port) (hversion : left.snmpVersion = right.snmpVersion) :
    sansId (hostinfoOf env left) = sansId (hostinfoOf { env with uniqueId := ids } right) ↔
      SameReadings env left right := by
  constructor
  · intro h
    have htype : left.iType = right.iType := toUInt32_inj (congrArg HostInfo.type h)
    have hsnmp := snmpType_of_testType hleft hright (congrArg HostInfo.snmpTestType h)
    refine ⟨?_, htype, congrArg HostInfo.contactWhen h, hsnmp, ?_, ?_, congrArg HostInfo.queuetime h,
      congrArg HostInfo.pageinterval h, ?_⟩
    · intro c hc
      cases c
      case ip => exact congrArg HostInfo.hostname h
      case desc => exact congrArg HostInfo.message h
      case group => exact congrArg HostInfo.group h
      case pmesg => exact congrArg HostInfo.pmesg h
      case dnsQuery => exact congrArg HostInfo.dnsQuery h
      case url => exact congrArg HostInfo.url h
      case urltext => exact congrArg HostInfo.urlText h
      case password => exact congrArg HostInfo.password h
      case username => exact congrArg HostInfo.username h
      case community => exact congrArg HostInfo.snmpCommunity h
      case contact => exact congrArg HostInfo.contact h
      case spawn => exact congrArg HostInfo.command h
      case secret =>
        have hfield := congrArg HostInfo.secret h
        simpa [sansId, hostinfoOf, ← htype, show left.iType = _ from hc] using hfield
      case snmpOidSec =>
        have hfield := congrArg HostInfo.snmpOidSec h
        simpa [sansId, hostinfoOf, ← htype, show left.iType = _ from hc] using hfield
      case oid =>
        have hfield := congrArg HostInfo.snmpOid h
        simpa [sansId, hostinfoOf, ← htype, ← hsnmp.2, hc.1, hc.2] using hfield
    · intro l
      cases l
      case low => exact congrArg HostInfo.snmpLow h
      case high => exact congrArg HostInfo.snmpHigh h
      case exact => exact congrArg HostInfo.snmpExact h
      case rate => exact congrArg HostInfo.snmpRate h
    · intro f
      cases f
      case reverse => exact congrArg HostInfo.reverse h
      case snmpOctets => exact congrArg HostInfo.snmpOctets h
      case trapAlert => exact congrArg HostInfo.trapAlert h
      case dnsAa => exact congrArg HostInfo.dnsAa h
      case dnsRecursion => exact congrArg HostInfo.dnsRecursion h
    · intro hreboot
      have hfield := congrArg HostInfo.maxDown h
      simp only [sansId, hostinfoOf, ← hsnmp.2, if_neg hreboot] at hfield
      exact asUlong_inj hfield
  · intro h
    have hsecret : (if right.iType = CheckType.radius then left.str .secret else none) =
        if right.iType = CheckType.radius then right.str .secret else none := by
      split
      case isTrue htype => exact h.str .secret (h.type.trans htype)
      case isFalse => rfl
    have hoidSec : (if right.iType = CheckType.snmp then left.str .snmpOidSec else none) =
        if right.iType = CheckType.snmp then right.str .snmpOidSec else none := by
      split
      case isTrue htype => exact h.str .snmpOidSec (h.type.trans htype)
      case isFalse => rfl
    have hoid : (if right.iSnmpType = snmpReboot then some snmpSystemSysuptime
          else if right.iType = CheckType.snmp then left.str .oid else none) =
        if right.iSnmpType = snmpReboot then some snmpSystemSysuptime
          else if right.iType = CheckType.snmp then right.str .oid else none := by
      split
      case isTrue => rfl
      case isFalse hreboot =>
        split
        case isTrue htype =>
          exact h.str .oid ⟨h.type.trans htype, fun heq => hreboot (h.snmpType.2 ▸ heq)⟩
        case isFalse => rfl
    have hmaxDown : (if right.iSnmpType = snmpReboot then 1
          else asUlong (numfailuresOf env left)) =
        if right.iSnmpType = snmpReboot then 1 else asUlong (numfailuresOf env right) := by
      split
      case isTrue => rfl
      case isFalse hreboot => rw [h.numfailures fun heq => hreboot (h.snmpType.2 ▸ heq)]
    have hid : ∀ s : Scratch, sansId (hostinfoOf { env with uniqueId := ids } s) =
        sansId (hostinfoOf env s) := fun _ => rfl
    rw [hid]
    simp only [sansId, hostinfoOf, hsecret, hoidSec, hoid, hmaxDown, h.queuetime, h.type, h.contactOn,
      h.snmpType.1, h.snmpType.2, h.limit, h.flag, h.pageinterval, hknob, hport, hversion,
      h.str .ip trivial, h.str .desc trivial, h.str .group trivial, h.str .pmesg trivial,
      h.str .dnsQuery trivial, h.str .url trivial, h.str .urltext trivial, h.str .password trivial,
      h.str .username trivial, h.str .community trivial, h.str .contact trivial,
      h.str .spawn trivial]

/-- The object is taken: the block is not one that only closes `spawns`, and the checks pass. -/
def Taken (env : Env) (s : Scratch) : Prop := s.shared.inSpawns = false ∧ validObject env s = true

instance (env : Env) (s : Scratch) : Decidable (Taken env s) :=
  inferInstanceAs (Decidable (_ ∧ _))

/-- What an object with this body is built from does not come from the objects before it, or has
come out of them the same. The scratch spaces are those right after the header. -/
structure Untouched (env : Env) (body : List Line) (left right : Scratch) : Prop where
  str : ∀ c, Copied (runBody env left body) c →
    Sets body (.text c) (textOf left.shared c) ∨ left.str c = right.str c
  type : Sets body .type (between ' ' ';') ∨ left.iType = right.iType
  contactOn : Sets body .contactOn readWhen ∨ left.when = right.when
  snmpType : Sets body .snmpType quoted ∨
    left.snmpTypeSet = right.snmpTypeSet ∧ left.iSnmpType = right.iSnmpType
  limit : ∀ l, Sets body (.limit l) quotedUlong ∨ (left.limit l).getD 0 = (right.limit l).getD 0
  flag : ∀ f, Sets body (.flag f) (fun _ => some true) ∨ left.flag f = right.flag f
  queuetime : queuetimeAfter env left (queuetimes body) = queuetimeAfter env right (queuetimes body)
  pageinterval : Sets body .pageinterval intAfterLastSpace ∨
    left.objIPageinterval = right.objIPageinterval
  numfailures : (runBody env left body).iSnmpType ≠ snmpReboot →
    Sets body .numfailures intAfterLastSpace ∨ numfailuresOf env left = numfailuresOf env right

theorem sameReadings_iff (hleft : Inside shared left) (hright : Inside shared right)
    (body : List Line) :
    SameReadings env (runBody env left body) (runBody env right body) ↔
      Untouched env body left right := by
  have hshared := hleft.1
  constructor
  · intro h
    exact {
      str := fun c hc => hshared ▸ (str_eq_iff hleft hright body c).mp (h.str c hc)
      type := (iType_eq_iff hleft hright body).mp h.type
      contactOn := (when_eq_iff hleft hright body).mp h.contactOn
      snmpType := (snmpType_eq_iff hleft hright body).mp h.snmpType
      limit := fun l => (limit_eq_iff hleft hright body l).mp (h.limit l)
      flag := fun f => (flag_eq_iff hleft hright body f).mp (h.flag f)
      queuetime := (queuetime_eq_iff hleft hright body).mp h.queuetime
      pageinterval := (pageinterval_eq_iff hleft hright body).mp h.pageinterval
      numfailures := fun hreboot =>
        (numfailures_eq_iff hleft hright body).mp (h.numfailures hreboot) }
  · intro h
    exact {
      str := fun c hc => (str_eq_iff hleft hright body c).mpr (hshared ▸ h.str c hc)
      type := (iType_eq_iff hleft hright body).mpr h.type
      contactOn := (when_eq_iff hleft hright body).mpr h.contactOn
      snmpType := (snmpType_eq_iff hleft hright body).mpr h.snmpType
      limit := fun l => (limit_eq_iff hleft hright body l).mpr (h.limit l)
      flag := fun f => (flag_eq_iff hleft hright body f).mpr (h.flag f)
      queuetime := (queuetime_eq_iff hleft hright body).mpr h.queuetime
      pageinterval := (pageinterval_eq_iff hleft hright body).mpr h.pageinterval
      numfailures := fun hreboot =>
        (numfailures_eq_iff hleft hright body).mpr (h.numfailures hreboot) }

/-- Neither file's parse takes the object, or both do and it is untouched. -/
def Isolated (env : Env) (header : CStr) (body : List Line) (left right : Scratch) : Prop :=
  let leftOpen := left.openObject header
  let rightOpen := right.openObject header
  (¬ Taken env (runBody env leftOpen body) ∧ ¬ Taken env (runBody env rightOpen body)) ∨
    (Taken env (runBody env leftOpen body) ∧ Taken env (runBody env rightOpen body) ∧
      Untouched env body leftOpen rightOpen)

/-- The `struct hostinfo` that a parse builds for the object at a place of the file, apart from its
random id. -/
def hostinfoAt (env : Env) (s : Scratch) (blocks : List Block) (place : Nat) : Option HostInfo :=
  ((builtBy env s blocks)[place]?.join).map fun element => sansId element.data

theorem map_closes (hname : s.name.isSome) :
    (closes env s).map (fun element => sansId element.data) =
      if Taken env s then some (sansId (hostinfoOf env s)) else none := by
  obtain ⟨name, hname⟩ := Option.isSome_iff_exists.mp hname
  cases hspawns : s.shared.inSpawns <;> cases hvalid : validObject env s <;>
    simp [closes, Taken, built, hname, hspawns, hvalid]

theorem hostinfoAt_append (start : Scratch) (before after : List Block) (header : CStr)
    (body : List Line) :
    hostinfoAt env start (before ++ .object header body :: after) before.length =
      (closes env (runBody env ((Run.exec (Block.step env) start before).openObject header)
        body)).map fun element => sansId element.data := by
  rw [hostinfoAt, builtBy_append]
  rfl

theorem snmpTypeKnown_fresh (globals : Scratch) :
    SnmpTypeKnown globals.iSnmpType globals.fresh := by
  refine ⟨fun _ => rfl, fun hset => ?_⟩
  have hunset : globals.fresh.snmpTypeSet = false := rfl
  rw [hunset] at hset
  exact absurd hset (by decide)

/-- Two files with the same directives outside of objects and the same objects by name, in which the
object after these blocks has the same body: its `struct hostinfo` is the same in both exactly when
it is isolated. -/
theorem hostinfoAt_eq_iff {ids : Nat → CStr} {globals : Scratch} {header : CStr} {body : List Line}
    {before before' : List Block} (hsame : SameOutside before before') (after after' : List Block) :
    hostinfoAt env globals.fresh (before ++ .object header body :: after) before.length =
        hostinfoAt { env with uniqueId := ids } globals.fresh
          (before' ++ .object header body :: after') before'.length ↔
      Isolated env header body (Run.exec (Block.step env) globals.fresh before)
        (Run.exec (Block.step { env with uniqueId := ids }) globals.fresh before') := by
  rw [hostinfoAt_append, hostinfoAt_append]
  set env' : Env := { env with uniqueId := ids }
  set left := Run.exec (Block.step env) globals.fresh before with hleftDef
  set right := Run.exec (Block.step env') globals.fresh before' with hrightDef
  -- a body is read the same whatever ids the parse hands out
  have henv : bodyStep env' = bodyStep env := by
    funext s ⟨attr, yytext⟩
    cases attr <;> rfl
  have hbody : runBody env' (right.openObject header) body =
      runBody env (right.openObject header) body := by
    rw [runBody, henv]
    rfl
  have hleft : Inside left.shared (left.openObject header) := ⟨rfl, rfl⟩
  have hright : Inside left.shared (right.openObject header) := by
    rw [shared_eq hsame rfl]
    exact ⟨rfl, rfl⟩
  have hknown : ∀ env blocks, SnmpTypeKnown globals.iSnmpType
      (runBody env ((Run.exec (Block.step env) globals.fresh blocks).openObject header) body) := by
    intro env blocks
    apply snmpTypeKnown_runBody
    rw [← yylex_tokens]
    have hopen := snmpTypeKnown_yylex env (snmpTypeKnown_fresh globals) (blocks.flatMap Block.tokens)
    exact ⟨hopen.unset, hopen.isSet⟩
  have hknownRight := hknown env' before'
  rw [← hrightDef, hbody] at hknownRight
  obtain ⟨hknob, hport, hversion⟩ := reset_eq env hleft hright body rfl rfl rfl
  have hinfo : sansId (hostinfoOf env (runBody env (left.openObject header) body)) =
      sansId (hostinfoOf env' (runBody env (right.openObject header) body)) ↔
        Untouched env body (left.openObject header) (right.openObject header) :=
    (sansId_hostinfoOf_iff (hknown env before) hknownRight hknob hport hversion).trans
      (sameReadings_iff hleft hright body)
  have hname : ∀ s : Scratch, Inside left.shared s → (runBody env s body).name.isSome := by
    intro s hs
    exact (inside_runBody hs body).2
  have htaken : ∀ s, Taken env' s ↔ Taken env s := fun _ => Iff.rfl
  rw [hbody, map_closes (hname _ hleft), map_closes (hname _ hright), Isolated]
  simp only [htaken]
  by_cases hl : Taken env (runBody env (left.openObject header) body)
  · by_cases hr : Taken env (runBody env (right.openObject header) body)
    · simp only [hl, hr, if_true, Option.some.injEq, hinfo, not_true, and_self, false_or, true_and]
    · simp [hl, hr]
  · by_cases hr : Taken env (runBody env (right.openObject header) body)
    · simp [hl, hr]
    · simp [hl, hr]

/-! ### Two objects -/

/-- A pinged host, with one more directive. -/
def pinged (header : String) (lines : List Line) : Block :=
  .object header.toList ([(.text .ip, "ip \"10.0.0.1\";".toList), (.type, "type ping;".toList)] ++ lines)

/-- Two hosts, the first with the lines given. -/
def twoPinged (lines : List Line) : List Block := [pinged "object a \x7b" lines, pinged "object x \x7b" []]

/-- A flag that the `object` rule resets stays with its object. -/
theorem reverse_stays :
    hostinfoAt resolving Scratch.atStart.fresh (twoPinged [(.flag .reverse, "reverse;".toList)]) 1 =
      hostinfoAt { resolving with uniqueId := fun _ => ['z'] } Scratch.atStart.fresh
        (twoPinged []) 1 := by
  have hsame : SameOutside [pinged "object a \x7b" [(.flag .reverse, "reverse;".toList)]]
      [pinged "object a \x7b" []] := .cons (.object _ _ _) .nil
  refine (hostinfoAt_eq_iff hsame [] []).mpr (Or.inr ⟨?_, ?_, ?_⟩)
  · decide
  · decide
  · exact {
      str := fun c _ => Or.inr (by cases c <;> decide)
      type := Or.inr rfl
      contactOn := Or.inr rfl
      snmpType := Or.inr ⟨rfl, rfl⟩
      limit := fun l => Or.inr rfl
      flag := fun f => Or.inr (by cases f <;> decide)
      queuetime := rfl
      pageinterval := Or.inr rfl
      numfailures := fun _ => Or.inr rfl }

/-- `contact_on` is not reset: the next object that does not say when to contact someone gets it.
Both files are accepted. -/
theorem contactOn_leaks :
    SameOutside (twoPinged [(.contactOn, "contact_on up;".toList)]) (twoPinged []) ∧
      (Run.exec (Block.step resolving) Scratch.atStart.fresh
        (twoPinged [(.contactOn, "contact_on up;".toList)])).badconfig = false ∧
      (Run.exec (Block.step resolving) Scratch.atStart.fresh (twoPinged [])).badconfig = false ∧
      hostinfoAt resolving Scratch.atStart.fresh
          (twoPinged [(.contactOn, "contact_on up;".toList)]) 1 ≠
        hostinfoAt resolving Scratch.atStart.fresh (twoPinged []) 1 := by
  refine ⟨.cons (.object _ _ _) (.cons (.object _ _ _) .nil), by decide, by decide, fun h => ?_⟩
  exact absurd (congrArg (Option.map HostInfo.contactWhen) h) (by decide)

end Sysmon.Parser
