import LedgerGateway.Text.CaseTable

/-!
# Lower-casing a text

`lowerCase` gives the lower-case form of a text by the rules of Unicode. A character becomes the one
its table names (`lowerChar`), and a character without an entry stays. Two rules go beyond one
character for one. The dotted capital I becomes a small i and a combining dot above. The capital
sigma becomes a final sigma at the end of a word and a small sigma elsewhere; it ends a word when
the nearest character before it that is not passed over has case, and the nearest one after it has
not.
-/

namespace LedgerGateway.Text

/-- The lower-case form of a character, as far as it does not hang on its neighbours. -/
def lowerChar (c : Char) : List Char :=
  if c.toNat < 128 then [c.toLower]
  else if c = 'İ' then ['i', '\u0307']
  else
    match lowerRuns.findSome? (·.lower? c.toNat) with
    | some n => [Char.ofNat n]
    | none => [c]

def isCaseIgnorable (c : Char) : Bool :=
  inRanges ignorableRanges c.toNat

def isCased (c : Char) : Bool :=
  inRanges casedRanges c.toNat

/-- Whether the first character that is not passed over has case. -/
def startsCased (cs : List Char) : Bool :=
  match cs.dropWhile isCaseIgnorable with
  | [] => false
  | c :: _ => isCased c

/-- Writes the lower-case forms of the characters to come, in reverse, before those already written.
`before` holds the characters read so far, the last one first. -/
def lowerOnto (written before : List Char) : List Char → List Char
  | [] => written
  | c :: rest =>
    let image :=
      if c = 'Σ' then
        if startsCased before && !startsCased rest then ['ς'] else ['σ']
      else lowerChar c
    lowerOnto (image.reverse ++ written) (c :: before) rest

def lowerCase (s : String) : String :=
  String.ofList (lowerOnto [] [] s.toList).reverse

end LedgerGateway.Text
