import BoundSql.Text.CaseTable

/-!
# Upper and lower case

Full Unicode case mapping: each character is replaced by its image, which may be longer than one
character.

    upper "straße" = "STRASSE"      upper "ınner" = "INNER"      lower "İ" = "i" followed by U+0307

Lowercasing is by character alone, so a capital sigma becomes a medial sigma wherever it stands, and
never a final one. What is put in lower case here is compared with words of ASCII, and for them it
makes no difference.
-/

namespace BoundSql.Text

/-- The image of a code point of the run; `none` outside it. -/
def CaseRun.image (r : CaseRun) (n : Nat) : Option Nat :=
  if r.first ≤ n && n ≤ r.last && (n - r.first) % r.stride == 0 then
    some (n + r.offset).toNat
  else
    none

/-- The code points that a code point is mapped to. -/
def CaseMapping.image (m : CaseMapping) (n : Nat) : List Nat :=
  match m.runs.findSome? (·.image n) with
  | some k => [k]
  | none => (m.expansions.lookup n).getD [n]

def CaseMapping.apply (m : CaseMapping) (cs : List Char) : List Char :=
  cs.flatMap fun c => (m.image c.toNat).map Char.ofNat

def upperMapping : CaseMapping := ⟨upperRuns, upperExpansions⟩

def lowerMapping : CaseMapping := ⟨lowerRuns, lowerExpansions⟩

def upper (s : String) : String := String.ofList (upperMapping.apply s.toList)

def lower (s : String) : String := String.ofList (lowerMapping.apply s.toList)

end BoundSql.Text
