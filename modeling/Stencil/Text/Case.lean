import Stencil.Text.Case.Context
import Stencil.Text.Case.Lower
import Stencil.Text.Case.Upper
/-!
# Upper and lower case of texts

One character may become several. A capital sigma becomes a final sigma at the end of a word.
-/

namespace Stencil

namespace Text

def upperCase (cs : List Char) : List Char := cs.flatMap (mapCase upperRuns upperExpansions)

/-- Whether the first character that case does not look through is a letter with case. -/
def nextIsCased (cs : List Char) : Bool :=
  match cs.dropWhile caseIgnorable.has with
  | c :: _ => cased.has c
  | [] => false

/-- Lower case of what follows `before`, which holds the characters read so far, newest first. -/
def lowerCaseAfter (before : List Char) : List Char → List Char
  | [] => []
  | c :: cs =>
    let lower :=
      if c = 'Σ' then
        if nextIsCased before && !nextIsCased cs then ['ς'] else ['σ']
      else
        mapCase lowerRuns lowerExpansions c
    lower ++ lowerCaseAfter (c :: before) cs

def lowerCase (cs : List Char) : List Char := lowerCaseAfter [] cs

end Text

end Stencil
