import Sysmon.Fleet.Hash
import Sysmon.Host
import Sysmon.Lib.GoSpace

/-!
# Where a box reports

The directives of a configuration that name its aggregator, as `uplink.go` collects them, and the check
that an edit leaves them as they were. A line is compared by its fields, so its blanks do not matter,
and the lines are sorted, so neither does their place.
-/

namespace Sysmon.Fleet

open GoSpace (byteSpaces)

/-- The bytes of an ASCII text. -/
def ascii (text : String) : List UInt8 := text.toList.map fun c => UInt8.ofNat c.toNat

/-- `strings.Fields`, of UTF-8 text. -/
def fieldsOf (line : List UInt8) : List (List UInt8) := byteSpaces.fields line

def uplinkDirectives : List (List UInt8) := [ascii "config aggregator", ascii "config aggregator-token"]

/-- A directive stands at the beginning of a line and a separator follows it. -/
def isUplink (line : List UInt8) : Bool :=
  uplinkDirectives.any fun d =>
    d.isPrefixOf line && ((line.drop d.length).head?.all fun b => b = 32 || b = 34 || b = 59)

/-- The lines of one file. White space is collapsed first, which leaves nothing of a blank line and the
first character of any other. -/
def fileUplinkLines (f : GenFile) : List (List UInt8) :=
  ((f.content.splitOn 10).map fun raw => [32].intercalate (fieldsOf raw)).filter fun line =>
    line ≠ [] && line.head? ≠ some 35 && line.head? ≠ some 59 && isUplink line

def uplinkLines (files : List GenFile) : List (List UInt8) :=
  (files.flatMap fileUplinkLines).mergeSort fun a b => decide (a ≤ b)

/-- `checkUplinkUnchanged`, which is to return nil. -/
def uplinkUnchanged (was now : List GenFile) : Bool := uplinkLines was = uplinkLines now

theorem uplinkLines_pairwise (files : List GenFile) : (uplinkLines files).Pairwise (· ≤ ·) := by
  have hpairwise : (uplinkLines files).Pairwise fun a b => decide (a ≤ b) :=
    List.pairwise_mergeSort
      (fun a b c hab hbc => by simpa using List.le_trans (by simpa using hab) (by simpa using hbc))
      (fun a b => by simpa using List.le_total a b) (files.flatMap fileUplinkLines)
  simpa using hpairwise

end Sysmon.Fleet
