import LineMarkup.Text.CaseTable

/-!
# Upper case and lower case

The case mappings of whole texts. They go character by character, with one exception: a capital
sigma at the end of a word has a lower case form of its own.

## Main Definitions

* `upperCase` — every character in upper case
* `lowerCase` — every character in lower case, a sigma that ends a word in its final form
-/

namespace LineMarkup.Text

/-- The text in upper case. -/
def upperCase (s : String) : String :=
  String.ofList (s.toList.flatMap upperOf)

/-- Whether a cased character comes first once ignorable characters are passed over. -/
def startsCased (cs : List Char) : Bool :=
  match cs.dropWhile isCaseIgnorable with
  | [] => false
  | c :: _ => isCased c

/-- The lower case form of the rest of a text. `before` holds what came before it, the nearest
character first. A sigma ends a word if case precedes it and no case follows it. -/
def lowerFrom (before : List Char) : List Char → List Char
  | [] => []
  | c :: rest =>
    let form :=
      if c = 'Σ' then
        if startsCased before && !startsCased rest then ['ς'] else ['σ']
      else
        lowerOf c
    form ++ lowerFrom (c :: before) rest

/-- The text in lower case. -/
def lowerCase (s : String) : String :=
  String.ofList (lowerFrom [] s.toList)

end LineMarkup.Text
