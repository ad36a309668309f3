import Mathlib.Data.List.DropRight
import Sysmon.Lib.CText
import Sysmon.Lib.GoSpace

/-!
# Go strings that are UTF-8

What `strings`, `strconv`, `bufio` and `path/filepath` do to a string, with each of its bytes a character. White
space is that of `unicode.IsSpace`, of which most is more than one byte long. A path is cleaned as on Unix.
-/

namespace GoBytes

open CText

/-! ### White space -/

/-- The space characters of a text. -/
def charSpaces : GoSpace.Spaces Char where
  short := isspace
  wide := GoSpace.utf8.map fun space => space.map Char.ofNat
  nonempty := by decide
  apart := by decide

/-- `strings.TrimSpace`. -/
def trimSpace (s : List Char) : List Char := charSpaces.trimSpace s

/-- `strings.Fields`. -/
def fields (s : List Char) : List (List Char) := charSpaces.fields s

/-! ### Runes -/

def inRange (low high : Char) : Option Char → Bool
  | some c => low ≤ c && c ≤ high
  | none => false

/-- The length of the UTF-8 sequence a text begins with, 0 if it begins with none. -/
def runeLength : List Char → Nat
  | [] => 0
  | a :: s =>
      if a < '\u0080' then 1
      else if '\u00c2' ≤ a && a ≤ '\u00df' && inRange '\u0080' '\u00bf' s[0]? then 2
      else if '\u00e0' ≤ a && a ≤ '\u00ef' &&
          inRange (if a = '\u00e0' then '\u00a0' else '\u0080') (if a = '\u00ed' then '\u009f' else '\u00bf') s[0]? &&
          inRange '\u0080' '\u00bf' s[1]? then 3
      else if '\u00f0' ≤ a && a ≤ '\u00f4' &&
          inRange (if a = '\u00f0' then '\u0090' else '\u0080') (if a = '\u00f4' then '\u008f' else '\u00bf') s[0]? &&
          inRange '\u0080' '\u00bf' s[1]? && inRange '\u0080' '\u00bf' s[2]? then 4
      else 0

/-- The runes of a text, with so many bytes of the current one still to come. A byte that belongs to none becomes
U+FFFD. -/
def runesLoop : Nat → List Char → List Char
  | _, [] => []
  | left + 1, c :: s => c :: runesLoop left s
  | 0, c :: s =>
      match runeLength (c :: s) with
      | 0 => '\u00ef' :: '\u00bf' :: '\u00bd' :: runesLoop 0 s
      | left + 1 => c :: runesLoop left s

/-- What is left of a text that is taken apart into runes and put together again. -/
def runes (s : List Char) : List Char := runesLoop 0 s

theorem mem_runesLoop {c : Char} (hc : c < '\u0080') (left : Nat) (s : List Char) : c ∈ runesLoop left s ↔ c ∈ s := by
  induction s generalizing left with
  | nil => cases left <;> simp [runesLoop]
  | cons d s ih =>
      cases left with
      | succ left => rw [runesLoop, List.mem_cons, ih, List.mem_cons]
      | zero =>
          rw [runesLoop]
          split
          · rename_i hnone
            have hne : c ≠ d := by
              rintro rfl
              rw [runeLength, if_pos hc] at hnone
              contradiction
            have h1 : c ≠ '\u00ef' := by rintro rfl; exact absurd hc (by decide)
            have h2 : c ≠ '\u00bf' := by rintro rfl; exact absurd hc (by decide)
            have h3 : c ≠ '\u00bd' := by rintro rfl; exact absurd hc (by decide)
            simp only [List.mem_cons, ih, h1, h2, h3, hne, false_or]
          · rw [List.mem_cons, ih, List.mem_cons]

/-- The ASCII characters of a text are its own. -/
theorem mem_runes {c : Char} (hc : c < '\u0080') (s : List Char) : c ∈ runes s ↔ c ∈ s := mem_runesLoop hc 0 s

/-! ### Prefixes and numbers -/

/-- `strings.TrimPrefix`. -/
def trimPrefix (start s : List Char) : List Char := if start.isPrefixOf s then s.drop start.length else s

/-- `strings.TrimSuffix`, of one character. -/
def trimSuffix (last : Char) (s : List Char) : List Char := if s.getLast? = some last then s.dropLast else s

/-- `strconv.Atoi`, and `strconv.ParseInt` in base 10 and 64 bits. -/
def atoi (s : List Char) : Option Int :=
  let (negative, rest) := sign s
  if rest = [] ∨ rest.all Char.isDigit = false then none
  else
    let value : Int := if negative then -digits rest else digits rest
    if value < -2 ^ 63 ∨ 2 ^ 63 ≤ value then none else some value

/-- What `%d` prints. -/
def showInt (i : Int) : List Char := CText.showInt i

/-! ### Lines -/

/-- `bufio.MaxScanTokenSize`. -/
def maxTokenSize : Nat := 64 * 1024

/-- A line without the carriage return it may end with. -/
def dropCr (line : List Char) : List Char := trimSuffix '\r' line

/-- The lines of a text, with what their ends are. -/
def rawLines (text : List Char) : List (List Char) :=
  let lines := text.splitOn '\n'
  if lines.getLast? = some [] then lines.dropLast else lines

/-- The lines a `bufio.Scanner` hands out. It stops at one that does not fit into its buffer. -/
def scanLines (text : List Char) : List (List Char) :=
  ((rawLines text).takeWhile fun line => line.length < maxTokenSize).map dropCr

/-- Whether its `Err` is `nil` then. -/
def scanOk (text : List Char) : Bool := (rawLines text).all fun line => line.length < maxTokenSize

/-! ### Paths -/

/-- `filepath.IsAbs`. -/
def isAbs (path : List Char) : Bool := path.head? = some '/'

/-- One element of a path, on top of those before it, the last of them first. -/
def cleanElement (rooted : Bool) (stack : List (List Char)) (element : List Char) : List (List Char) :=
  if element = [] ∨ element = ['.'] then stack
  else if element = ['.', '.'] then
    match stack with
    | [] => if rooted then [] else [element]
    | top :: rest => if top = ['.', '.'] then element :: stack else rest
  else element :: stack

/-- `filepath.Clean`. -/
def clean (path : List Char) : List Char :=
  let elements := ((path.splitOn '/').foldl (cleanElement (isAbs path)) []).reverse
  if isAbs path then '/' :: ['/'].intercalate elements
  else if elements = [] then ['.']
  else ['/'].intercalate elements

/-- `filepath.Join` of two elements. -/
def join (left right : List Char) : List Char :=
  if left = [] then if right = [] then [] else clean right
  else if right = [] then clean left
  else clean (left ++ '/' :: right)

/-- `filepath.Dir`. -/
def dir (path : List Char) : List Char := clean (path.rdropWhile (· ≠ '/'))

example : join "/etc/sysmon/".toList "../hosts.conf".toList = "/etc/hosts.conf".toList := by decide

end GoBytes
