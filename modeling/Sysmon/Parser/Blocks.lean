import Sysmon.Parser.Object

/-!
# Blocks

A file is a list of blocks: a directive outside every object, or an object with its body. Here is
what a block adds to the list of objects, and, variable by variable, what a body makes of the
scratch space: a directive either overwrites the variable it is for or, if its text is not in order,
does nothing.
-/

namespace Sysmon.Parser

open CText

/-! ### Blocks -/

abbrev Line := Attr × CStr

inductive Block where
  | outside (token : Token)
  | object (header : CStr) (body : List Line)
  deriving DecidableEq, Repr

def Block.tokens : Block → List Token
  | .outside token => [token]
  | .object header body =>
      ⟨.object, header⟩ :: body.map (fun line => ⟨.attr line.1, line.2⟩) ++ [⟨.close, []⟩]

def bodyStep (env : Env) (s : Scratch) (line : Line) : Scratch := line.1.step env s line.2

def runBody (env : Env) (s : Scratch) (body : List Line) : Scratch := Run.exec (bodyStep env) s body

def Block.step (env : Env) (s : Scratch) (block : Block) : Scratch := yylex env s block.tokens

/-- What the block adds to the objects. -/
def Block.builds (env : Env) (s : Scratch) : Block → Option Element
  | .outside token => if token.rule = .close then closes env s else none
  | .object header body => closes env (runBody env (s.openObject header) body)

/-- What each block of a file adds. -/
def builtBy (env : Env) (s : Scratch) : List Block → List (Option Element)
  | [] => []
  | block :: blocks => block.builds env s :: builtBy env (block.step env s) blocks

variable {env : Env}

theorem step_object (s : Scratch) (header : CStr) (body : List Line) :
    Block.step env s (.object header body) =
      Token.step env (runBody env (s.openObject header) body) ⟨.close, []⟩ := by
  have hbody : ∀ s : Scratch, yylex env s (body.map fun line => ⟨.attr line.1, line.2⟩) =
      runBody env s body := by
    intro s
    rw [yylex, runBody, Run.exec, List.foldl_map]
    rfl
  rw [Block.step, Block.tokens, yylex, List.cons_append, Run.exec_cons, Run.exec_append]
  exact congrArg (fun s => Token.step env s ⟨.close, []⟩) (hbody (s.openObject header))

theorem yylex_tokens (s : Scratch) (blocks : List Block) :
    yylex env s (blocks.flatMap Block.tokens) = Run.exec (Block.step env) s blocks := by
  induction blocks generalizing s with
  | nil => rfl
  | cons block blocks ih =>
      rw [List.flatMap_cons, yylex, Run.exec_append, Run.exec_cons]
      exact ih _

theorem head_attr (s : Scratch) (attr : Attr) (yytext : CStr) :
    (attr.step env s yytext).head = s.head := by
  cases attr <;> simp only [Attr.step]
  all_goals first | rfl | (split <;> rfl)

theorem head_close (s : Scratch) (yytext : CStr) :
    (Token.step env s ⟨.close, yytext⟩).head = (closes env s).toList ++ s.head := by
  simp only [Token.step, closes]
  split
  · rfl
  · rw [addObject]
    split
    case isTrue hname => simp [built, hname]
    case isFalse => cases built env s <;> rfl

theorem head_token (s : Scratch) (token : Token) :
    (token.step env s).head = (if token.rule = .close then closes env s else none).toList ++ s.head := by
  obtain ⟨rule, yytext⟩ := token
  cases rule with
  | attr attr => exact head_attr s attr yytext
  | close => exact head_close s yytext
  | root =>
      simp only [Token.step]
      split <;> rfl
  | sitename =>
      simp only [Token.step]
      repeat' split
      all_goals first | rfl | contradiction
  | set | spawns | spawnDef | object => rfl

theorem builtBy_append (s : Scratch) (before after : List Block) (block : Block) :
    (builtBy env s (before ++ block :: after))[before.length]? =
      some (block.builds env (Run.exec (Block.step env) s before)) := by
  induction before generalizing s with
  | nil => rfl
  | cons first before ih => simpa [builtBy] using ih (first.step env s)

/-! ### What the directives of a body write -/

/-- The value a directive gives to what `target` stands for, if it is one of those. -/
def valueOf {α : Type} (target : Attr) (read : CStr → Option α) (line : Line) : Option α :=
  if line.1 = target then read line.2 else none

/-- The body has a directive of that kind whose text is in order. -/
def Sets {α : Type} (body : List Line) (target : Attr) (read : CStr → Option α) : Prop :=
  ∃ yytext, (target, yytext) ∈ body ∧ (read yytext).isSome

theorem written_iff {α : Type} {body : List Line} {target : Attr} {read : CStr → Option α} :
    Run.Written (valueOf target read) body ↔ Sets body target read := by
  constructor
  · rintro ⟨⟨attr, yytext⟩, hmem, hread⟩
    by_cases heq : attr = target
    · rw [valueOf, if_pos heq] at hread
      exact ⟨yytext, heq ▸ hmem, hread⟩
    · rw [valueOf, if_neg heq] at hread
      exact absurd hread (by simp)
  · rintro ⟨yytext, hmem, hread⟩
    exact ⟨(target, yytext), hmem, by rwa [valueOf, if_pos rfl]⟩

/-- Inside an object whose file has made these definitions. -/
def Inside (shared : Shared) (s : Scratch) : Prop := s.shared = shared ∧ s.name.isSome

variable {s : Scratch} {shared : Shared}

theorem inside_step (s : Scratch) (line : Line) (h : Inside shared s) :
    Inside shared (bodyStep env s line) := by
  obtain ⟨attr, yytext⟩ := line
  cases attr <;> simp only [bodyStep, Attr.step]
  all_goals first | exact h | (split <;> exact h)

theorem inside_runBody (h : Inside shared s) (body : List Line) :
    Inside shared (runBody env s body) := by
  induction body generalizing s with
  | nil => exact h
  | cons line body ih =>
      rw [runBody, Run.exec_cons]
      exact ih (inside_step s line h)

/-- Inside an object one kind of directive writes the variable: it gets what the directive says, if its
text is in order. -/
structure Writes (env : Env) (shared : Shared) {α : Type} (cell : Scratch → α) (target : Attr)
    (read : CStr → Option α) : Prop where
  other : ∀ s attr yytext, attr ≠ target → cell (attr.step env s yytext) = cell s
  own : ∀ s yytext, Inside shared s → cell (target.step env s yytext) = (read yytext).getD (cell s)

namespace Writes

variable {α : Type} {cell : Scratch → α} {target : Attr} {read : CStr → Option α}

theorem step (h : Writes env shared cell target read) (s : Scratch) (line : Line) (hs : Inside shared s) :
    cell (bodyStep env s line) = (valueOf target read line).getD (cell s) := by
  obtain ⟨attr, yytext⟩ := line
  by_cases hattr : attr = target
  · subst hattr
    rw [valueOf, if_pos rfl]
    exact h.own s yytext hs
  · rw [valueOf, if_neg hattr]
    exact h.other s attr yytext hattr

/-- What the last directive of its kind has said. -/
theorem runBody (h : Writes env shared cell target read) (hs : Inside shared s) (body : List Line) :
    cell (runBody env s body) = (body.filterMap (valueOf target read)).getLast?.getD (cell s) :=
  Run.exec_cell inside_step h.step hs

/-- The variable comes out the same of two runs of a body when it went in the same or the body sets
it. -/
theorem runBody_eq_iff (h : Writes env shared cell target read) {left right : Scratch}
    (hleft : Inside shared left) (hright : Inside shared right) (body : List Line) :
    cell (Parser.runBody env left body) = cell (Parser.runBody env right body) ↔
      Sets body target read ∨ cell left = cell right := by
  rw [← written_iff]
  exact Run.exec_eq_iff_written inside_step h.step hleft hright

end Writes

theorem sets_map {α β : Type} {body : List Line} {target : Attr} {read : CStr → Option α}
    {f : α → β} : Sets body target (fun yytext => (read yytext).map f) ↔ Sets body target read := by
  simp [Sets]

theorem writes_str (c : StrCell) :
    Writes env shared (fun s => s.str c) (.text c) (fun y => (textOf shared c y).map some) := by
  constructor
  · intro s attr yytext hne
    cases attr <;> simp only [Attr.step]
    case text c' =>
      have hc : c ≠ c' := fun heq => hne (heq ▸ rfl)
      split
      · exact Function.update_of_ne hc _ _
      · rfl
    all_goals first | rfl | (split <;> rfl)
  · intro s yytext hs
    simp only [Attr.step, hs.1]
    cases textOf shared c yytext <;> simp

theorem writes_limit (l : Limit) :
    Writes env shared (fun s => (s.limit l).getD 0) (.limit l) quotedUlong := by
  constructor
  · intro s attr yytext hne
    cases attr <;> simp only [Attr.step]
    case limit l' =>
      have hl : l ≠ l' := fun heq => hne (heq ▸ rfl)
      split
      · dsimp only
        rw [Function.update_of_ne hl]
      · rfl
    all_goals first | rfl | (split <;> rfl)
  · intro s yytext _
    simp only [Attr.step]
    cases quotedUlong yytext <;> simp

theorem writes_flag (f : Flag) :
    Writes env shared (fun s => s.flag f) (.flag f) (fun _ => some true) := by
  constructor
  · intro s attr yytext hne
    cases attr <;> simp only [Attr.step]
    case flag f' =>
      have hf : f ≠ f' := fun heq => hne (heq ▸ rfl)
      exact Function.update_of_ne hf _ _
    all_goals first | rfl | (split <;> rfl)
  · intro s yytext _
    simp [Attr.step]

theorem writes_knob (k : Knob) :
    Writes env shared (fun s => s.knob k) (.knob k) (fun y => (intAfterSpace y).map k.checked) := by
  constructor
  · intro s attr yytext hne
    cases attr <;> simp only [Attr.step]
    case knob k' =>
      have hk : k ≠ k' := fun heq => hne (heq ▸ rfl)
      split
      · exact Function.update_of_ne hk _ _
      · rfl
    all_goals first | rfl | (split <;> rfl)
  · intro s yytext _
    simp only [Attr.step]
    cases intAfterSpace yytext <;> simp

theorem writes_iType :
    Writes env shared Scratch.iType .type
      (fun y => (between ' ' ';' y).map (nameToType env.disableIcmp)) := by
  constructor
  · intro s attr yytext hne
    cases attr <;> first | exact absurd rfl hne | simp only [Attr.step]
    all_goals first | rfl | (split <;> rfl)
  · intro s yytext _
    simp only [Attr.step]
    cases between ' ' ';' yytext <;> rfl

theorem writes_port :
    Writes env shared Scratch.port .port (fun y => (intAfterSpace y).map some) := by
  constructor
  · intro s attr yytext hne
    cases attr <;> first | exact absurd rfl hne | simp only [Attr.step]
    all_goals first | rfl | (split <;> rfl)
  · intro s yytext _
    simp only [Attr.step]
    cases intAfterSpace yytext <;> rfl

theorem writes_snmpVersion :
    Writes env shared Scratch.snmpVersion .snmpVersion
      (fun y => (quoted y).map readSnmpVersion) := by
  constructor
  · intro s attr yytext hne
    cases attr <;> first | exact absurd rfl hne | simp only [Attr.step]
    all_goals first | rfl | (split <;> rfl)
  · intro s yytext _
    simp only [Attr.step]
    cases quoted yytext <;> rfl

theorem writes_snmpType :
    Writes env shared (fun s => (s.snmpTypeSet, s.iSnmpType)) .snmpType
      (fun y => (quoted y).map fun text => (true, nameToSnmpType text)) := by
  constructor
  · intro s attr yytext hne
    cases attr <;> first | exact absurd rfl hne | simp only [Attr.step]
    all_goals first | rfl | (split <;> rfl)
  · intro s yytext _
    simp only [Attr.step]
    cases quoted yytext <;> rfl

theorem writes_when : Writes env shared Scratch.when .contactOn readWhen := by
  constructor
  · intro s attr yytext hne
    cases attr <;> first | exact absurd rfl hne | simp only [Attr.step]
    all_goals first | rfl | (split <;> rfl)
  · intro s yytext _
    simp only [Attr.step]
    cases readWhen yytext <;> rfl

theorem writes_pageinterval :
    Writes env shared Scratch.objIPageinterval .pageinterval
      (fun y => (intAfterLastSpace y).map fun value : Int32 => if value < 0 then -1 else value) := by
  constructor
  · intro s attr yytext hne
    cases attr <;> first | exact absurd rfl hne | simp only [Attr.step]
    all_goals first | rfl | (split <;> rfl)
  · intro s yytext hs
    simp only [Attr.step]
    cases intAfterLastSpace yytext <;> simp [Scratch.setPageinterval, hs.2]

theorem writes_numfailures :
    Writes env shared (numfailuresOf env) .numfailures intAfterLastSpace := by
  constructor
  · intro s attr yytext hne
    cases attr <;> first | exact absurd rfl hne | simp only [Attr.step]
    all_goals first | rfl | (split <;> rfl)
  · intro s yytext hs
    simp only [Attr.step]
    cases intAfterLastSpace yytext with
    | none => rfl
    | some value => simp [Scratch.setNumfailures, numfailuresOf, hs.2]

variable {left right : Scratch}

section Cells

variable (hleft : Inside shared left) (hright : Inside shared right) (body : List Line)
include hleft hright

theorem str_eq_iff (c : StrCell) :
    (runBody env left body).str c = (runBody env right body).str c ↔
      Sets body (.text c) (textOf shared c) ∨ left.str c = right.str c :=
  ((writes_str c).runBody_eq_iff hleft hright body).trans (or_congr_left sets_map)

theorem limit_eq_iff (l : Limit) :
    ((runBody env left body).limit l).getD 0 = ((runBody env right body).limit l).getD 0 ↔
      Sets body (.limit l) quotedUlong ∨ (left.limit l).getD 0 = (right.limit l).getD 0 :=
  (writes_limit l).runBody_eq_iff hleft hright body

theorem flag_eq_iff (f : Flag) :
    (runBody env left body).flag f = (runBody env right body).flag f ↔
      Sets body (.flag f) (fun _ => some true) ∨ left.flag f = right.flag f :=
  (writes_flag f).runBody_eq_iff hleft hright body

theorem iType_eq_iff :
    (runBody env left body).iType = (runBody env right body).iType ↔
      Sets body .type (between ' ' ';') ∨ left.iType = right.iType :=
  (writes_iType.runBody_eq_iff hleft hright body).trans (or_congr_left sets_map)

theorem snmpType_eq_iff :
    (runBody env left body).snmpTypeSet = (runBody env right body).snmpTypeSet ∧
        (runBody env left body).iSnmpType = (runBody env right body).iSnmpType ↔
      Sets body .snmpType quoted ∨
        left.snmpTypeSet = right.snmpTypeSet ∧ left.iSnmpType = right.iSnmpType := by
  rw [← Prod.mk.injEq, ← Prod.mk.injEq]
  exact (writes_snmpType.runBody_eq_iff hleft hright body).trans (or_congr_left sets_map)

theorem when_eq_iff :
    (runBody env left body).when = (runBody env right body).when ↔
      Sets body .contactOn readWhen ∨ left.when = right.when :=
  writes_when.runBody_eq_iff hleft hright body

theorem pageinterval_eq_iff :
    (runBody env left body).objIPageinterval = (runBody env right body).objIPageinterval ↔
      Sets body .pageinterval intAfterLastSpace ∨
        left.objIPageinterval = right.objIPageinterval :=
  (writes_pageinterval.runBody_eq_iff hleft hright body).trans (or_congr_left sets_map)

theorem numfailures_eq_iff :
    numfailuresOf env (runBody env left body) = numfailuresOf env (runBody env right body) ↔
      Sets body .numfailures intAfterLastSpace ∨
        numfailuresOf env left = numfailuresOf env right :=
  writes_numfailures.runBody_eq_iff hleft hright body

variable (env) in
/-- What the `object` rule resets is the body's own afterwards. -/
theorem reset_eq (hknob : left.knob = right.knob) (hport : left.port = right.port)
    (hversion : left.snmpVersion = right.snmpVersion) :
    (runBody env left body).knob = (runBody env right body).knob ∧
      (runBody env left body).port = (runBody env right body).port ∧
      (runBody env left body).snmpVersion = (runBody env right body).snmpVersion := by
  refine ⟨funext fun k => ?_, ?_, ?_⟩
  · exact ((writes_knob k).runBody_eq_iff hleft hright body).mpr (Or.inr (congrFun hknob k))
  · exact (writes_port.runBody_eq_iff hleft hright body).mpr (Or.inr hport)
  · exact (writes_snmpVersion.runBody_eq_iff hleft hright body).mpr (Or.inr hversion)

end Cells

/-! ### The check interval

`config queuetime` with the number -1 takes back what it says, so it is not enough to know that a
body has one. -/

/-- The default that is left over for an object that writes -1. -/
def queuetimeLeft (s : Scratch) : Int32 := if s.queuetimeSet then -1 else s.iQueuetime

def queuetimes (body : List Line) : List Int32 :=
  body.filterMap (valueOf .queuetime intAfterLastSpace)

/-- The check interval of an object, from the numbers its body gives and what it found. -/
def queuetimeAfter (env : Env) (s : Scratch) : List Int32 → UInt64
  | [] => queuetimeOf env s
  | [value] => asUlong (if value = -1 then queuetimeLeft s else value)
  | _ :: value :: values => asUlong ((value :: values).getLast (by simp))

theorem queuetimes_cons (line : Line) (body : List Line) :
    queuetimes (line :: body) = match valueOf .queuetime intAfterLastSpace line with
      | none => queuetimes body
      | some value => value :: queuetimes body := by
  rw [queuetimes, List.filterMap_cons]
  cases valueOf .queuetime intAfterLastSpace line <;> rfl

theorem queuetimeLeft_step (env : Env) (attr : Attr) (yytext : CStr) (s : Scratch) :
    queuetimeLeft (attr.step env s yytext) =
      if (valueOf .queuetime intAfterLastSpace (attr, yytext)).isSome then -1
      else queuetimeLeft s := by
  cases attr <;> simp only [Attr.step, valueOf, reduceCtorEq, if_false, if_true]
  case queuetime =>
    cases intAfterLastSpace yytext <;> simp [queuetimeLeft, Scratch.setQueuetime]
  all_goals first | rfl | (split <;> rfl)

theorem queuetimeOf_step (env : Env) (attr : Attr) (yytext : CStr) (s : Scratch) (hname : s.name.isSome) :
    queuetimeOf env (attr.step env s yytext) =
      match valueOf .queuetime intAfterLastSpace (attr, yytext) with
      | some value => asUlong (if value = -1 then queuetimeLeft s else value)
      | none => queuetimeOf env s := by
  cases attr <;> simp only [Attr.step, valueOf, reduceCtorEq, if_false, if_true]
  case queuetime =>
    cases intAfterLastSpace yytext with
    | none => rfl
    | some value =>
        by_cases hvalue : value = -1
        · simp [queuetimeOf, queuetimeLeft, Scratch.setQueuetime, hname, hvalue, asUlong]
        · simp [queuetimeOf, Scratch.setQueuetime, hname, hvalue, asUlong]
  all_goals first | rfl | (split <;> rfl)

theorem queuetimeOf_runBody (h : Inside shared s) (body : List Line) :
    queuetimeOf env (runBody env s body) = queuetimeAfter env s (queuetimes body) := by
  induction body generalizing s with
  | nil => rfl
  | cons line body ih =>
      obtain ⟨attr, yytext⟩ := line
      have hnext : queuetimeOf env (runBody env s ((attr, yytext) :: body)) =
          queuetimeAfter env (attr.step env s yytext) (queuetimes body) :=
        ih (inside_step s (attr, yytext) h)
      have hof := queuetimeOf_step env attr yytext s h.2
      have hleft := queuetimeLeft_step env attr yytext s
      rw [hnext, queuetimes_cons]
      cases hvalue : valueOf .queuetime intAfterLastSpace (attr, yytext) with
      | none =>
          rw [hvalue] at hof hleft
          dsimp only
          cases queuetimes body with
          | nil => exact hof
          | cons first rest =>
              cases rest with
              | nil => simp only [queuetimeAfter, hleft, Option.isSome_none, Bool.false_eq_true,
                  if_false]
              | cons => rfl
      | some value =>
          rw [hvalue] at hof hleft
          dsimp only
          cases queuetimes body with
          | nil => exact hof
          | cons first rest =>
              cases rest with
              | nil =>
                  -- the default is gone, so -1 means -1
                  simp only [queuetimeAfter, hleft, Option.isSome_some, if_true,
                    List.getLast_singleton]
                  split
                  case isTrue hfirst => rw [hfirst]
                  case isFalse => rfl
              | cons => simp [queuetimeAfter]

theorem queuetime_eq_iff (hleft : Inside shared left) (hright : Inside shared right)
    (body : List Line) :
    queuetimeOf env (runBody env left body) = queuetimeOf env (runBody env right body) ↔
      queuetimeAfter env left (queuetimes body) = queuetimeAfter env right (queuetimes body) := by
  rw [queuetimeOf_runBody hleft, queuetimeOf_runBody hright]

end Sysmon.Parser
