import Sysmon.ConfGen.Store
import Sysmon.Parser.Isolation
import Sysmon.Parser.Scanner

/-!
# Files

A configuration is the files of one managed directory, read from its entry file on: an include is
read where it stands. Here is what the scanner makes of them, piece by piece, and what the rules
complain about. A complaint is a message and no more; the parse goes on. What is left out are the
warnings about a directive that is taken all the same (outside an object, no longer used, given
twice). When a configuration gives no cause for complaint, the objects it builds are those its
blocks name (`names_of_taken`).
-/

namespace Sysmon.Parser

open CText ConfGen

/-! ### From files to tokens -/

inductive Piece where
  | token (token : Token)
  | setting (wants : Wants) (yytext : CStr)
  /-- An include that does not have its name in quotes. -/
  | unquoted (yytext : CStr)
  /-- An include that cannot be opened. -/
  | missing (name : CStr)
  /-- An include that opens a directory, where reading is a fatal error of the scanner. -/
  | unreadable (name : CStr)
  | unknown (text : CStr)
  deriving DecidableEq, Repr

/-- What the C functions see of a text: it ends at the first NUL. -/
def cstring (text : CStr) : CStr := text.takeWhile (· ≠ '\x00')

def Action.pieces (included : CStr → List Piece) (text : CStr) : Action → List Piece
  | .skip => []
  | .token rule => [.token ⟨rule, cstring text⟩]
  | .setting wants => [.setting wants (cstring text)]
  | .includeFile =>
      match quoted (cstring text) with
      | some name => included name
      | none => [.unquoted (cstring text)]
  | .unknown => [.unknown text]

/-- `open_new_file` in a managed directory: only plain names are read. An empty name and the two
dots are directories. -/
def openNewFile (dir : Dir) (included : CStr → List Piece) (filename : CStr) : List Piece :=
  if '/' ∈ filename then [.missing filename]
  else if filename = [] ∨ filename = ".".toList ∨ filename = "..".toList then [.unreadable filename]
  else
    match dir.find? fun file => file.name = filename with
    | some file => included file.data
    | none => [.missing filename]

/-- A text with its includes, each of which takes one of the files that may still be opened. -/
def pieces (dir : Dir) : Nat → CStr → List Piece
  | 0, text => (lex text).flatMap fun (action, matched) =>
      action.pieces (fun filename => [.missing filename]) matched
  | descriptors + 1, text => (lex text).flatMap fun (action, matched) =>
      action.pieces (openNewFile dir (pieces dir descriptors)) matched

def Piece.token? : Piece → Option Token
  | .token found => some found
  | _ => none

def tokensOf (pieces : List Piece) : List Token := pieces.filterMap Piece.token?

/-! ### Complaints -/

/-- The names `match_facility` knows. -/
def facilities : List String :=
  ["kern", "user", "mail", "daemon", "auth", "syslog", "lpr", "news", "uucp", "cron", "authpriv",
    "local0", "local1", "local2", "local3", "local4", "local5", "local6", "local7", "none"]

def Wants.met (wants : Wants) (yytext : CStr) : Bool :=
  match wants with
  | .nothing => true
  | .quotes => (quoted yytext).isSome
  | .facility => (quoted yytext).any fun name => facilities.any fun known => known.toList = name
  | .atLeast least => (intAfterLastSpace yytext).any fun number => least ≤ number
  | .number => (intAfterLastSpace yytext).any fun number => number ≠ -1

def Piece.taken : Piece → Bool
  | .token _ => true
  | .setting wants yytext => wants.met yytext
  | .unquoted _ | .missing _ | .unreadable _ | .unknown _ => false

/-- The ways to write the version of SNMP. -/
def snmpVersions : List String := ["1", "v1", "2c", "v2c", "2"]

/-- The rule takes what its directive says. -/
def Attr.takes (env : Env) (s : Scratch) (attr : Attr) (yytext : CStr) : Bool :=
  match attr with
  | .flag _ | .ignored => true
  | .text c => (textOf s.shared c yytext).isSome
  | .type => (between ' ' ';' yytext).any fun name => nameToType env.disableIcmp name ≠ -1
  | .port => (intAfterSpace yytext).any fun number => number ≠ -1
  | .knob k => (intAfterSpace yytext).any fun number => k.checked number = number
  | .snmpVersion => (quoted yytext).any fun name =>
      snmpVersions.any fun known => sameIgnoringCase name known.toList
  | .snmpType => (quoted yytext).any fun name => nameToSnmpType name ≠ -1
  | .limit _ => (quotedUlong yytext).any fun number => number ≠ -1
  | .contactOn => (readWhen yytext).isSome
  | .dep => (quoted yytext).isSome
  -- an object may ask for the default
  | .queuetime => (intAfterLastSpace yytext).any fun number => s.name.isSome || number ≠ -1
  | .pageinterval => (intAfterLastSpace yytext).any fun number => 0 ≤ number
  | .numfailures => (intAfterLastSpace yytext).any fun number => number ≠ -1

def Token.takes (env : Env) (s : Scratch) (token : Token) : Bool :=
  match token.rule with
  | .attr attr => attr.takes env s token.yytext
  | .set => (quoted token.yytext).isSome && (between ' ' ' ' token.yytext).isSome
  | .root => (quoted token.yytext).isSome
  | .spawns | .object => true
  | .spawnDef => s.shared.inSpawns && (quoted token.yytext).isSome
  | .sitename => (quoted token.yytext).any validSitename
  | .close => s.shared.inSpawns || (built env s).isSome

/-- No directive of the list gives cause for complaint where it stands. -/
def AllTaken (env : Env) (s : Scratch) (tokens : List Token) : Prop :=
  Run.Guarded (Token.step env) (fun s token => token.takes env s = true) s tokens

/-- The configuration is understood as a whole. -/
structure Understood (env : Env) (s : Scratch) (pieces : List Piece) : Prop where
  recognised : ∀ piece ∈ pieces, piece.taken = true
  taken : AllTaken env s (tokensOf pieces)

instance (env : Env) (s : Scratch) (pieces : List Piece) : Decidable (Understood env s pieces) :=
  decidable_of_iff ((∀ piece ∈ pieces, piece.taken = true) ∧
    Run.Guarded (Token.step env) (fun s token => token.takes env s = true) s (tokensOf pieces))
    ⟨fun h => ⟨h.1, h.2⟩, fun h => ⟨h.recognised, h.taken⟩⟩

/-! ### Crashes -/

/-- The parser lives through the token: a `set` with one space only sends it through a `NULL`, and so
does an object without an address when the resolver has names to compare it with. -/
def Token.survives (cached : Bool) (s : Scratch) (token : Token) : Bool :=
  match token.rule with
  | .set => (quoted token.yytext).isNone || (after ' ' token.yytext).isNone ||
      (between ' ' ' ' token.yytext).isSome
  | .close => !cached || s.shared.inSpawns || s.name.isNone || (s.str .ip).isSome
  | _ => true

/-! ### The objects a configuration names -/

/-- The name in the header of a block. -/
def headerName (yytext : CStr) : CStr :=
  ((yytext.drop 6).dropWhile isspace).takeWhile fun c => !isspace c

/-- The names of the blocks that are closed, from inside a `spawns` block or not and with the name
of the block that is open. -/
def declared : Bool → Option CStr → List Token → List CStr
  | _, _, [] => []
  | inSpawns, name, token :: tokens =>
      match token.rule with
      | .spawns => declared true name tokens
      | .object => declared inSpawns (some (headerName token.yytext)) tokens
      | .close =>
          if inSpawns then declared false name tokens else name.toList ++ declared false none tokens
      | _ => declared inSpawns name tokens

variable {env : Env}

theorem name_attr (s : Scratch) (attr : Attr) (yytext : CStr) :
    (attr.step env s yytext).name = s.name := by
  cases attr <;> simp only [Attr.step]
  all_goals first | rfl | (split <;> rfl)

theorem name_token {s : Scratch} {token : Token} (hobject : token.rule ≠ .object)
    (hclose : token.rule ≠ .close) : (token.step env s).name = s.name := by
  obtain ⟨rule, yytext⟩ := token
  cases rule with
  | attr attr => exact name_attr s attr yytext
  | object => exact absurd rfl hobject
  | close => exact absurd rfl hclose
  | root =>
      simp only [Token.step]
      split <;> rfl
  | sitename =>
      simp only [Token.step]
      repeat' split
      all_goals rfl
  | set | spawns | spawnDef => rfl

theorem declared_of_frame {inSpawns : Bool} {name : Option CStr} {token : Token} {tokens : List Token}
    (hspawns : token.rule ≠ .spawns) (hobject : token.rule ≠ .object)
    (hclose : token.rule ≠ .close) :
    declared inSpawns name (token :: tokens) = declared inSpawns name tokens := by
  obtain ⟨rule, yytext⟩ := token
  cases rule with
  | spawns => exact absurd rfl hspawns
  | object => exact absurd rfl hobject
  | close => exact absurd rfl hclose
  | attr | set | root | spawnDef | sitename => rfl

theorem inSpawns_token {s : Scratch} {token : Token} (hspawns : token.rule ≠ .spawns)
    (hclose : token.rule ≠ .close) : (token.step env s).shared.inSpawns = s.shared.inSpawns := by
  rw [shared_token]
  obtain ⟨rule, yytext⟩ := token
  cases rule with
  | spawns => exact absurd rfl hspawns
  | close => exact absurd rfl hclose
  | set =>
      simp only [Shared.step, Shared.set]
      split <;> rfl
  | spawnDef =>
      simp only [Shared.step, Shared.spawnDef]
      repeat' split
      all_goals rfl
  | attr | root | object | sitename => rfl

/-- A block that is taken leaves its object and no name. -/
theorem close_of_takes {s : Scratch} {yytext : CStr} (hspawns : s.shared.inSpawns = false)
    (htakes : Token.takes env s ⟨.close, yytext⟩ = true) :
    ∃ element, s.name = some element.uniqueName ∧
      (Token.step env s ⟨.close, yytext⟩).head = element :: s.head ∧
      (Token.step env s ⟨.close, yytext⟩).name = none := by
  simp only [Token.takes, hspawns, Bool.false_or] at htakes
  obtain ⟨element, hbuilt⟩ := Option.isSome_iff_exists.mp htakes
  have hname : s.name = some element.uniqueName := by
    rw [built] at hbuilt
    split at hbuilt
    · exact absurd hbuilt (by simp)
    · split at hbuilt
      · rw [← Option.some.inj hbuilt]
        assumption
      · exact absurd hbuilt (by simp)
  refine ⟨element, hname, ?_, ?_⟩
  · rw [head_close, closes, hspawns, if_neg (by decide), hbuilt]
    rfl
  · simp only [Token.step, hspawns, Bool.false_eq_true, if_false, addObject, hname, hbuilt,
      reduceCtorEq]

/-- Where there is nothing to complain about, the objects are those the blocks name, the last one
first. -/
theorem names_of_taken {s : Scratch} {tokens : List Token} (htaken : AllTaken env s tokens) :
    (yylex env s tokens).head.map Element.uniqueName =
      (declared s.shared.inSpawns s.name tokens).reverse ++ s.head.map Element.uniqueName := by
  induction tokens generalizing s with
  | nil => rfl
  | cons token tokens ih =>
      obtain ⟨htakes, hrest⟩ := Run.guarded_cons.mp htaken
      have hnext : yylex env s (token :: tokens) = yylex env (token.step env s) tokens := rfl
      rw [hnext, ih hrest]
      obtain ⟨rule, yytext⟩ := token
      by_cases hclose : rule = .close
      · subst hclose
        by_cases hspawns : s.shared.inSpawns = true
        · have hstep : Token.step env s ⟨.close, yytext⟩ = { s with shared.inSpawns := false } := by
            simp only [Token.step, hspawns, if_true]
          rw [hstep, declared, hspawns]
          rfl
        · have hspawns' : s.shared.inSpawns = false := eq_false_of_ne_true hspawns
          obtain ⟨element, hname, hhead, hnone⟩ := close_of_takes hspawns' htakes
          rw [hhead, hnone, shared_token, hname, declared, hspawns']
          simp [Shared.step]
      · rw [head_token, if_neg hclose, Option.toList_none, List.nil_append]
        by_cases hobject : rule = .object
        · subst hobject
          rfl
        · rw [name_token hobject hclose]
          by_cases hspawns : rule = .spawns
          · subst hspawns
            rfl
          · rw [inSpawns_token hspawns hclose, declared_of_frame hspawns hobject hclose]

end Sysmon.Parser
