import LineMarkup.Json.Tree
import LineMarkup.Proofs.Spelling

/-!
# Texts of JSON trees

The grammar of JSON as relations between texts and trees, said without a tokenizer and without a
stack: a value with its blanks around it is an element, elements stand between commas, members are
names in quotes with elements.  What a text in quotes stands for goes over its pieces, since escapes
may name the two halves of a character apart from each other; a text whose halves do not come in
pairs is well formed and stands for nothing.

Reading is followed from behind: `State.Reads st cs d` says that the tokens of `cs` take the state
`st` to the document `d`, whatever list of turns the tokenizer is given, if it is long enough.
So a token is one step, and nothing has to be known about where the tokens of a longer text begin.

## Main Definitions

* `PiecesText`, `Names`, `QuotedText` — texts in quotes
* `NumberText` — numbers
* `TreeText`, `ElementText`, `ElementsText`, `MembersText` — values, alone and between commas
* `closesValue` — what comes behind a value
* `State.Reads` — the document that a text makes of a state

## Main Statements

* `joinPieces_eq_some_iff` — the characters of pieces, with halves in pairs
* `TreeText.reads` — the text of a value takes a state that waits for one to the value
* `parse_of_elementText` — a text is read as the tree it spells, up to its end
-/

namespace LineMarkup.Json

open Grammar (StartsWith startsWith_nil startsWith_cons IsDigits)

/-- Any number of blanks. -/
def Blanks (w : List Char) : Prop :=
  ∀ c ∈ w, isSpace c = true

/-! ### Texts in quotes -/

/-- Whether a character stands for itself in quotes. -/
def standsPlain (c : Char) : Bool :=
  0x20 ≤ c.toNat && c != '"' && c != '\\'

/-- A piece: a character that needs no escape, a letter behind a backslash, or the code of four
hexadecimal digits. -/
inductive PieceText : List Char → Piece → Prop where
  | plain {c : Char} : standsPlain c = true → PieceText [c] (.char c)
  | letter {c e : Char} : escaped? c = some e → PieceText ['\\', c] (.char e)
  | code {a b c d : Char} {n : Nat} : hexCode? a b c d = some n →
      PieceText ['\\', 'u', a, b, c, d] (.code n)

/-- Pieces, one behind the other. -/
inductive PiecesText : List Char → List Piece → Prop where
  | nil : PiecesText [] []
  | cons {s t : List Char} {p : Piece} {ps : List Piece} : PieceText s p → PiecesText t ps →
      PiecesText (s ++ t) (p :: ps)

/-- The characters that pieces name: a code names its character, two halves in a row name the one
beyond the first plane. -/
inductive Names : List Piece → List Char → Prop where
  | nil : Names [] []
  | char {ps : List Piece} {cs : List Char} (c : Char) : Names ps cs →
      Names (.char c :: ps) (c :: cs)
  | code {n : Nat} {ps : List Piece} {cs : List Char} : isHighHalf n = false → isLowHalf n = false →
      Names ps cs → Names (.code n :: ps) (Char.ofNat n :: cs)
  | halves {high low : Nat} {ps : List Piece} {cs : List Char} : isHighHalf high = true →
      isLowHalf low = true → Names ps cs → Names (.code high :: .code low :: ps)
        (Char.ofNat ((high - 0xD800) * 0x400 + (low - 0xDC00) + 0x10000) :: cs)

/-- A text in quotes, with what it names, if it names something. -/
inductive QuotedText : List Char → Option String → Prop where
  | named {s cs : List Char} {ps : List Piece} : PiecesText s ps → Names ps cs →
      QuotedText ('"' :: (s ++ ['"'])) (some (String.ofList cs))
  | nameless {s : List Char} {ps : List Piece} : PiecesText s ps → (∀ cs, ¬ Names ps cs) →
      QuotedText ('"' :: (s ++ ['"'])) none

/-! ### Numbers -/

/-- The sign of a number. -/
inductive SignText : List Char → Bool → Prop where
  | minus : SignText ['-'] true
  | none : SignText [] false

/-- The digits before the point: no zero in front of other digits. -/
structure WholeText (ds : List Char) : Prop where
  digits : IsDigits ds
  zero : ∀ d ds', ds ≠ '0' :: d :: ds'

/-- The digits behind the point, if there is one. -/
inductive FractionText : List Char → Option (List Char) → Prop where
  | none : FractionText [] none
  | some {ds : List Char} : IsDigits ds → FractionText ('.' :: ds) (some ds)

/-- The sign of an exponent. -/
inductive ExponentSign : List Char → Bool → Prop where
  | minus : ExponentSign ['-'] true
  | plus : ExponentSign ['+'] false
  | none : ExponentSign [] false

/-- The exponent, if there is one. -/
inductive ExponentText : List Char → Option Int → Prop where
  | none : ExponentText [] none
  | some {mark : Char} {sign ds : List Char} {negative : Bool} :
      (mark == 'e' || mark == 'E') = true → ExponentSign sign negative → IsDigits ds →
      ExponentText (mark :: (sign ++ ds))
        (some (if negative then -(Number.digitsValue ds : Int) else Number.digitsValue ds))

/-- A number, by its parts. -/
inductive NumberText : List Char → Numeral → Prop where
  | mk {sign ds f e : List Char} {negative : Bool} {fraction : Option (List Char)}
      {exponent : Option Int} : SignText sign negative → WholeText ds → FractionText f fraction →
      ExponentText e exponent →
      NumberText (sign ++ (ds ++ (f ++ e))) (numeral negative ds fraction exponent)

/-! ### Values -/

mutual

/-- A value. -/
inductive TreeText : List Char → Tree → Prop where
  | null : TreeText ['n', 'u', 'l', 'l'] .null
  | yes : TreeText ['t', 'r', 'u', 'e'] (.bool true)
  | no : TreeText ['f', 'a', 'l', 's', 'e'] (.bool false)
  | number {s : List Char} {n : Numeral} : NumberText s n → TreeText s (.number n)
  | string {s : List Char} {x : Option String} : QuotedText s x → TreeText s (.string x)
  | emptyArray {w : List Char} : Blanks w → TreeText ('[' :: (w ++ [']'])) (.array [] true)
  | array {s : List Char} {ts : List Tree} : ElementsText s ts →
      TreeText ('[' :: (s ++ [']'])) (.array ts true)
  | emptyObject {w : List Char} : Blanks w → TreeText ('{' :: (w ++ ['}'])) (.object [] true)
  | object {s : List Char} {fs : List (Option String × Tree)} : MembersText s fs →
      TreeText ('{' :: (s ++ ['}'])) (.object fs true)

/-- A value with blanks around it. -/
inductive ElementText : List Char → Tree → Prop where
  | mk {w s w' : List Char} {t : Tree} : Blanks w → TreeText s t → Blanks w' →
      ElementText (w ++ (s ++ w')) t

/-- Elements with commas between them, at least one. -/
inductive ElementsText : List Char → List Tree → Prop where
  | last {s : List Char} {t : Tree} : ElementText s t → ElementsText s [t]
  | more {s s' : List Char} {t : Tree} {ts : List Tree} : ElementText s t → ElementsText s' ts →
      ElementsText (s ++ ',' :: s') (t :: ts)

/-- A key in quotes with blanks around it, and an element behind a colon. -/
inductive MemberText : List Char → Option String × Tree → Prop where
  | mk {w k w' s : List Char} {key : Option String} {t : Tree} : Blanks w → QuotedText k key →
      Blanks w' → ElementText s t → MemberText (w ++ (k ++ (w' ++ ':' :: s))) (key, t)

/-- Members with commas between them, at least one. -/
inductive MembersText : List Char → List (Option String × Tree) → Prop where
  | last {s : List Char} {f : Option String × Tree} : MemberText s f → MembersText s [f]
  | more {s s' : List Char} {f : Option String × Tree} {fs : List (Option String × Tree)} :
      MemberText s f → MembersText s' fs → MembersText (s ++ ',' :: s') (f :: fs)

end

/-! ### Simple texts -/

/-- Characters that need no escape. -/
theorem QuotedText.plain {cs : List Char} (h : cs.all standsPlain = true) :
    QuotedText ('"' :: (cs ++ ['"'])) (some (String.ofList cs)) := by
  suffices h' : PiecesText cs (cs.map .char) ∧ Names (cs.map .char) cs from .named h'.1 h'.2
  induction cs with
  | nil => exact ⟨.nil, .nil⟩
  | cons c cs ih =>
      rw [List.all_cons, Bool.and_eq_true] at h
      obtain ⟨hs, hnames⟩ := ih h.2
      exact ⟨.cons (.plain h.1) hs, .char c hnames⟩

theorem blanks_nil : Blanks [] :=
  fun _ h => absurd h List.not_mem_nil

/-- A value without blanks around it is an element. -/
theorem ElementText.bare {s : List Char} {t : Tree} (h : TreeText s t) : ElementText s t := by
  have := ElementText.mk blanks_nil h blanks_nil
  rwa [List.nil_append, List.append_nil] at this

/-- A key and a value without blanks around them are a member. -/
theorem MemberText.bare {k s : List Char} {key : Option String} {t : Tree} (hk : QuotedText k key)
    (hs : TreeText s t) : MemberText (k ++ ':' :: s) (key, t) :=
  .mk blanks_nil hk blanks_nil (.bare hs)

theorem isDigits_of_all {ds : List Char} (hne : ds ≠ []) (h : ds.all Char.isDigit = true) :
    IsDigits ds :=
  ⟨hne, List.all_eq_true.mp h⟩

/-- A single digit. -/
theorem WholeText.digit {d : Char} (h : d.isDigit = true) : WholeText [d] where
  digits := ⟨List.cons_ne_nil _ _, fun _ hd => List.mem_singleton.mp hd ▸ h⟩
  zero := nofun

/-- A text as the value of a key, both of characters that need no escape. -/
theorem MemberText.text {key cs : List Char} (hkey : key.all standsPlain = true)
    (hcs : cs.all standsPlain = true) :
    MemberText ('"' :: (key ++ ['"']) ++ ':' :: '"' :: (cs ++ ['"']))
      (some (String.ofList key), .string (some (String.ofList cs))) :=
  .bare (.plain hkey) (.string (.plain hcs))

/-! ### Tokens -/

/-- What comes behind a value: a blank, a comma, or a closing bracket. -/
def closesValue (c : Char) : Bool :=
  isSpace c || c == ',' || c == ']' || c == '}'

/-- One piece is scanned, whatever pieces come behind it. -/
theorem scanPieces_of_pieceText {s t after : List Char} {p : Piece} {ps : List Piece}
    (h : PieceText s p) (hrest : scanPieces t = some (ps, after)) :
    scanPieces (s ++ t) = some (p :: ps, after) := by
  cases h with
  | @plain c hc =>
      simp only [standsPlain, Bool.and_eq_true, decide_eq_true_eq, bne_iff_ne, ne_eq] at hc
      obtain ⟨⟨hcontrol, hquote⟩, hback⟩ := hc
      simp [scanPieces, hback, hrest, Nat.not_lt.mpr hcontrol]
  | @letter c e he =>
      have hne : c ≠ 'u' := by
        rintro rfl
        cases he
      simp [scanPieces, hne, he, hrest]
  | code hn => simp [scanPieces, hn, hrest]

/-- Pieces are scanned up to the quotation mark that ends them. -/
theorem scanPieces_of_piecesText {s : List Char} {ps : List Piece} (h : PiecesText s ps)
    (after : List Char) : scanPieces (s ++ '"' :: after) = some (ps, after) := by
  induction h with
  | nil => simp [scanPieces]
  | cons hp _ ih =>
      rw [List.append_assoc]
      exact scanPieces_of_pieceText hp ih

/-- **Pieces are joined to the characters that they name.** -/
theorem joinPieces_eq_some_iff {ps : List Piece} {cs : List Char} :
    joinPieces ps = some cs ↔ Names ps cs := by
  constructor
  · intro h
    fun_induction joinPieces ps generalizing cs with
    | case1 =>
        cases h
        exact .nil
    | case2 c rest ih =>
        obtain ⟨named, hnamed, rfl⟩ := Option.map_eq_some_iff.mp h
        exact .char c (ih hnamed)
    | case3 high low rest hhigh hlow ih =>
        obtain ⟨named, hnamed, rfl⟩ := Option.map_eq_some_iff.mp h
        exact .halves hhigh hlow (ih hnamed)
    | case4 => cases h
    | case5 => cases h
    | case6 high low rest hhigh hlow ih =>
        obtain ⟨named, hnamed, rfl⟩ := Option.map_eq_some_iff.mp h
        exact .code (Bool.not_eq_true _ ▸ hhigh) (Bool.not_eq_true _ ▸ hlow) (ih hnamed)
    | case7 => cases h
    | case8 n rest _ hhalf ih =>
        obtain ⟨named, hnamed, rfl⟩ := Option.map_eq_some_iff.mp h
        rw [Bool.or_eq_true, not_or] at hhalf
        exact .code (by simpa using hhalf.1) (by simpa using hhalf.2) (ih hnamed)
  · intro h
    induction h with
    | nil => rfl
    | char c _ ih => rw [joinPieces, ih, Option.map_some]
    | @code n ps cs hhigh hlow _ ih =>
        rw [joinPieces.eq_def]
        split <;> simp_all
    | halves hhigh hlow _ ih => rw [joinPieces, if_pos hhigh, if_pos hlow, ih, Option.map_some]

/-- Pieces between quotation marks are one token. -/
theorem scanToken_of_piecesText {s : List Char} {ps : List Piece} (h : PiecesText s ps)
    (after : List Char) : scanToken ('"' :: (s ++ ['"']) ++ after) =
      (.string ((joinPieces ps).map String.ofList), after) := by
  rw [List.cons_append, List.append_assoc, List.singleton_append, scanToken, scanText,
    scanPieces_of_piecesText h, Option.map_some]

/-- **A text in quotes is read as what it names.** -/
theorem scanToken_of_quotedText {s : List Char} {x : Option String} (h : QuotedText s x)
    (after : List Char) : scanToken (s ++ after) = (.string x, after) := by
  cases h with
  | named hs hnames =>
      rw [scanToken_of_piecesText hs, joinPieces_eq_some_iff.mpr hnames, Option.map_some]
  | @nameless s ps hs hnames =>
      have hjoin : joinPieces ps = none :=
        Option.eq_none_iff_forall_ne_some.mpr fun cs hcs =>
          hnames cs (joinPieces_eq_some_iff.mp hcs)
      rw [scanToken_of_piecesText hs, hjoin, Option.map_none]

section Numbers

variable {t : List Char}

/-- What ends a number: neither a digit nor the beginning of a part that may follow. -/
def endsNumber (c : Char) : Bool :=
  !c.isDigit && c != '.' && c != 'e' && c != 'E'

/-- What closes a value ends a number. -/
theorem endsNumber_of_closesValue {c : Char} (h : closesValue c = true) : endsNumber c = true := by
  simp only [closesValue, isSpace, Bool.or_eq_true, beq_iff_eq] at h
  rcases h with (((((rfl | rfl) | rfl) | rfl) | rfl) | rfl) | rfl <;> decide

/-- A stretch of digits does not begin with another character. -/
theorem ne_of_isDigits {d c : Char} {ds : List Char} (h : IsDigits (d :: ds))
    (hc : c.isDigit = false) : d ≠ c := by
  rintro rfl
  rw [h.2 d List.mem_cons_self] at hc
  cases hc

/-- Digits are scanned up to the first character that is none. -/
theorem scanDigits_append {ds : List Char} (h : IsDigits ds)
    (ht : StartsWith (fun c => !c.isDigit) t) : scanDigits (ds ++ t) = some (ds, t) := by
  obtain ⟨htake, hdrop⟩ := Grammar.takeWhile_append_of_startsWith h.2 ht
  rw [scanDigits, htake, hdrop]
  cases ds with
  | nil => exact absurd rfl h.1
  | cons d ds => rfl

/-- The digits before the point are scanned whole. -/
theorem scanWhole_append {ds : List Char} (h : WholeText ds)
    (ht : StartsWith (fun c => !c.isDigit) t) : scanWhole (ds ++ t) = some (ds, t) := by
  rw [scanWhole, scanDigits_append h.digits ht]
  split
  · rename_i d ds' _ heq
    cases heq
    exact absurd rfl (h.zero d ds')
  · rfl

/-- The digits behind the point are scanned whole, or there is no point. -/
theorem scanFraction_append {f : List Char} {x : Option (List Char)} (h : FractionText f x)
    (ht : StartsWith (fun c => !c.isDigit && c != '.') t) :
    scanFraction (f ++ t) = some (x, t) := by
  cases h with
  | none =>
      rw [List.nil_append, scanFraction.eq_def]
      split
      · simp at ht
      · rfl
  | some hds =>
      rw [List.cons_append, scanFraction, scanDigits_append hds (ht.mono fun c hc => ?_)]
      · rfl
      · exact (Bool.and_eq_true_iff.mp hc).1

/-- An exponent is scanned whole, or there is none. -/
theorem scanExponent_append {e : List Char} {x : Option Int} (h : ExponentText e x)
    (ht : StartsWith endsNumber t) : scanExponent (e ++ t) = some (x, t) := by
  have hdigits : StartsWith (fun c => !c.isDigit) t :=
    ht.mono fun c hc => by
      simp only [endsNumber, Bool.and_eq_true] at hc
      exact hc.1.1.1
  cases h with
  | none =>
      cases t with
      | nil => rfl
      | cons c t =>
          rw [startsWith_cons] at ht
          simp only [endsNumber, Bool.and_eq_true, bne_iff_ne, ne_eq] at ht
          simp [scanExponent, ht.1.2, ht.2]
  | @some mark sign ds negative hmark hsign hds =>
      rw [List.cons_append, List.append_assoc, scanExponent.eq_def]
      dsimp only
      rw [if_pos hmark]
      cases hsign with
      | minus => simp [scanDigits_append hds hdigits]
      | plus => simp [scanDigits_append hds hdigits]
      | none =>
          obtain ⟨d, ds, rfl⟩ := List.exists_cons_of_ne_nil hds.1
          have hminus : d ≠ '-' := ne_of_isDigits hds rfl
          have hplus : d ≠ '+' := ne_of_isDigits hds rfl
          have hscan := scanDigits_append hds hdigits
          rw [List.cons_append] at hscan
          simp [hminus, hplus, hscan]

/-- An exponent begins with its mark, and where there is none the next part begins. -/
theorem ExponentText.startsWith {e : List Char} {x : Option Int} {p : Char → Bool}
    (h : ExponentText e x) (hlower : p 'e' = true) (hupper : p 'E' = true) (ht : StartsWith p t) :
    StartsWith p (e ++ t) := by
  cases h with
  | none => exact ht
  | some hmark _ _ =>
      simp only [Bool.or_eq_true, beq_iff_eq] at hmark
      rcases hmark with rfl | rfl
      · exact startsWith_cons.mpr hlower
      · exact startsWith_cons.mpr hupper

/-- A fraction begins with the point, and where there is none the next part begins. -/
theorem FractionText.startsWith {f : List Char} {x : Option (List Char)} {p : Char → Bool}
    (h : FractionText f x) (hpoint : p '.' = true) (ht : StartsWith p t) :
    StartsWith p (f ++ t) := by
  cases h with
  | none => exact ht
  | some _ => exact startsWith_cons.mpr hpoint

/-- **A number is read up to what comes behind a value.** -/
theorem scanNumber_append {s : List Char} {n : Numeral} (h : NumberText s n)
    (ht : StartsWith closesValue t) : scanNumber (s ++ t) = some (n, t) := by
  have hend : StartsWith endsNumber t := ht.mono fun _ => endsNumber_of_closesValue
  obtain @⟨sign, ds, f, e, negative, fraction, exponent, hsign, hds, hf, he⟩ := h
  have hexponent := scanExponent_append he hend
  have hfraction : scanFraction (f ++ (e ++ t)) = some (fraction, e ++ t) :=
    scanFraction_append hf <| he.startsWith rfl rfl <| hend.mono fun c hc => by
      simp only [endsNumber, Bool.and_eq_true] at hc ⊢
      exact hc.1.1
  have hwhole : scanWhole (ds ++ (f ++ (e ++ t))) = some (ds, f ++ (e ++ t)) :=
    scanWhole_append hds <| hf.startsWith rfl <| he.startsWith rfl rfl <| hend.mono fun c hc => by
      simp only [endsNumber, Bool.and_eq_true] at hc
      exact hc.1.1.1
  simp only [List.append_assoc]
  cases hsign with
  | minus => simp [scanNumber, hwhole, hfraction, hexponent]
  | none =>
      obtain ⟨d, ds, rfl⟩ := List.exists_cons_of_ne_nil hds.digits.1
      have hminus : d ≠ '-' := ne_of_isDigits hds.digits rfl
      rw [List.cons_append] at hwhole
      simp [scanNumber, hminus, hwhole, hfraction, hexponent]

/-- What begins a number. -/
def opensNumber (c : Char) : Bool :=
  c == '-' || c.isDigit

/-- A sign or a digit makes the tokenizer scan a number. -/
theorem scanToken_of_opensNumber {c : Char} {n : Numeral} {after : List Char}
    (h : opensNumber c = true) (hscan : scanNumber (c :: t) = some (n, after)) :
    scanToken (c :: t) = (.number n, after) := by
  rw [scanToken]
  · rw [hscan]
  -- No other token begins in this way.
  all_goals
    intros
    rename_i heq
    cases heq <;> exact absurd h (by decide)

/-- A number begins with a sign or a digit. -/
theorem NumberText.opensNumber {s : List Char} {n : Numeral} (h : NumberText s n) :
    ∃ c s', s = c :: s' ∧ opensNumber c = true := by
  obtain @⟨sign, ds, f, e, negative, fraction, exponent, hsign, hds, hf, he⟩ := h
  cases hsign with
  | minus => exact ⟨'-', _, rfl, rfl⟩
  | none =>
      obtain ⟨d, ds, rfl⟩ := List.exists_cons_of_ne_nil hds.digits.1
      refine ⟨d, _, rfl, ?_⟩
      rw [Json.opensNumber, hds.digits.2 d List.mem_cons_self, Bool.or_true]

/-- A number in front of what closes a value is one token. -/
theorem scanToken_of_numberText {s : List Char} {n : Numeral} (h : NumberText s n)
    (ht : StartsWith closesValue t) : scanToken (s ++ t) = (.number n, t) := by
  have hscan := scanNumber_append h ht
  obtain ⟨c, s', rfl, hc⟩ := h.opensNumber
  exact scanToken_of_opensNumber hc hscan

end Numbers

/-- Blanks end a value, as well as what ends it without them. -/
theorem startsWith_blanks {w t : List Char} (hw : Blanks w) (ht : StartsWith closesValue t) :
    StartsWith closesValue (w ++ t) := by
  cases w with
  | nil => exact ht
  | cons c w =>
      refine startsWith_cons.mpr ?_
      simp [closesValue, hw c List.mem_cons_self]

/-- A number does not begin with a blank. -/
theorem isSpace_of_opensNumber {c : Char} (h : opensNumber c = true) : isSpace c = false := by
  refine Bool.eq_false_iff.mpr fun hspace => ?_
  simp only [isSpace, Bool.or_eq_true, beq_iff_eq] at hspace
  rcases hspace with ((rfl | rfl) | rfl) | rfl <;> exact absurd h (by decide)

/-- A text in quotes begins with its mark. -/
theorem QuotedText.opens {s : List Char} {x : Option String} (h : QuotedText s x) :
    ∃ s', s = '"' :: s' := by
  cases h <;> exact ⟨_, rfl⟩

/-! ### Reading -/

/-- The value that a token is by itself. -/
def Token.tree? : Token → Option Tree
  | .null => some .null
  | .bool b => some (.bool b)
  | .number n => some (.number n)
  | .string x => some (.string x)
  | _ => none

namespace State

/-- The tokens of a text take a state to a document, whatever the turns, if there are enough. -/
def Reads (st : State) (cs : List Char) (d : Document) : Prop :=
  ∀ turns : List Char, cs.length ≤ turns.length → st.run (tokensWithin turns cs) = d

variable {st st' : State} {d : Document} {w rest : List Char}

/-- Behind the outermost value nothing has to come. -/
theorem reads_end {t : Tree} : Reads (.after t []) [] ⟨t, true⟩ := by
  intro turns _
  cases turns <;> rfl

/-- Blanks in front of a token make no difference. -/
theorem Reads.blanks (hw : Blanks w) (h : Reads st rest d) : Reads st (w ++ rest) d := by
  intro turns hturns
  have hlen : rest.length ≤ turns.length := by
    rw [List.length_append] at hturns
    omega
  rw [← h turns hlen]
  cases turns with
  | nil => rfl
  | cons turn turns => rw [tokensWithin, tokensWithin, List.dropWhile_append_of_pos hw]

/-- No state goes on at what is no token. -/
theorem step?_malformed (st : State) : st.step? .malformed = none := by
  rcases st with ⟨_ | ⟨_ | _, _⟩, _ | _⟩ | ⟨_, _, _ | _⟩ | _ | ⟨_, _ | ⟨_ | _, _⟩⟩ <;> rfl

/-- A token is one step. -/
theorem Reads.token {c : Char} {s : List Char} {k : Token} (hspace : isSpace c = false)
    (hscan : scanToken (c :: s ++ rest) = (k, rest)) (hstep : st.step? k = some st')
    (h : Reads st' rest d) : Reads st (c :: s ++ rest) d := by
  intro turns hturns
  cases turns with
  | nil => cases hturns
  | cons turn turns =>
      have hlen : rest.length ≤ turns.length := by
        simp only [List.length_append, List.length_cons] at hturns
        omega
      have hdrop : (c :: s ++ rest).dropWhile isSpace = c :: s ++ rest := by
        rw [List.cons_append, List.dropWhile_cons_of_neg (by simp [hspace])]
      have htokens : tokensWithin (turn :: turns) (c :: s ++ rest) =
          k :: tokensWithin turns rest := by
        rw [tokensWithin, hdrop, List.cons_append]
        dsimp only
        rw [← List.cons_append, hscan]
        cases k with
        | malformed =>
            rw [step?_malformed] at hstep
            cases hstep
        | _ => rfl
      rw [htokens, run, hstep]
      exact h turns hlen

/-- A single character that is a token. -/
theorem Reads.mark {c : Char} {k : Token} (hspace : isSpace c = false)
    (hscan : scanToken (c :: rest) = (k, rest)) (hstep : st.step? k = some st')
    (h : Reads st' rest d) : Reads st (c :: rest) d :=
  Reads.token (s := []) hspace hscan hstep h

variable {stack : List Frame} {mayClose : Bool}

/-- A token that is a value by itself is put where a value is waited for. -/
theorem step?_value {k : Token} {t : Tree} (h : k.tree? = some t) :
    (value stack mayClose).step? k = some (after t stack) := by
  rcases stack with _ | ⟨_ | _, _⟩ <;> cases mayClose <;> cases k <;> cases h <;> rfl

/-- A bracket where a value is waited for opens an array. -/
theorem step?_openArray :
    (value stack mayClose).step? .openArray = some (value (.array [] :: stack) true) := by
  rcases stack with _ | ⟨_ | _, _⟩ <;> cases mayClose <;> rfl

/-- A brace where a value is waited for opens an object. -/
theorem step?_openObject : (value stack mayClose).step? .openObject = some (key [] stack true) := by
  rcases stack with _ | ⟨_ | _, _⟩ <;> cases mayClose <;> rfl

/-- A text where a key is waited for is the key. -/
theorem step?_key {done : List (Option String × Tree)} {k : Option String} :
    (key done stack mayClose).step? (.string k) = some (colon done k stack) := by
  cases mayClose <;> rfl

/-- A text in quotes is read as one token. -/
theorem Reads.quoted {s : List Char} {x : Option String} (hs : QuotedText s x)
    (hstep : st.step? (.string x) = some st') (h : Reads st' rest d) : Reads st (s ++ rest) d := by
  have hscan := scanToken_of_quotedText hs rest
  obtain ⟨s', rfl⟩ := hs.opens
  exact .token rfl hscan hstep h

/-- A number is read as one token. -/
theorem Reads.number {s : List Char} {n : Numeral} (hs : NumberText s n)
    (hrest : StartsWith closesValue rest) (h : Reads (.after (.number n) stack) rest d) :
    Reads (.value stack mayClose) (s ++ rest) d := by
  have hscan := scanToken_of_numberText hs hrest
  obtain ⟨c, s', rfl, hc⟩ := hs.opensNumber
  exact .token (isSpace_of_opensNumber hc) hscan (step?_value rfl) h

end State

open State (Reads)

variable {d : Document}

mutual

/-- **The text of a value takes a state that waits for one to the value.** -/
theorem TreeText.reads : {s : List Char} → {t : Tree} → TreeText s t →
    {rest : List Char} → {stack : List Frame} → {mayClose : Bool} → StartsWith closesValue rest →
    Reads (.after t stack) rest d → Reads (.value stack mayClose) (s ++ rest) d
  | _, _, .null, _, _, _, _, h => .token rfl rfl (State.step?_value rfl) h
  | _, _, .yes, _, _, _, _, h => .token rfl rfl (State.step?_value rfl) h
  | _, _, .no, _, _, _, _, h => .token rfl rfl (State.step?_value rfl) h
  | _, _, .number hs, _, _, _, hrest, h => .number hs hrest h
  | _, _, .string hs, _, _, _, _, h => .quoted hs (State.step?_value rfl) h
  | _, _, .emptyArray hw, _, _, _, _, h => by
      rw [List.cons_append, List.append_assoc]
      exact .mark rfl rfl State.step?_openArray (.blanks hw (.mark rfl rfl rfl h))
  | _, _, .array hs, _, _, _, _, h => by
      rw [List.cons_append, List.append_assoc]
      exact .mark rfl rfl State.step?_openArray (hs.reads h)
  | _, _, .emptyObject hw, _, _, _, _, h => by
      rw [List.cons_append, List.append_assoc]
      exact .mark rfl rfl State.step?_openObject (.blanks hw (.mark rfl rfl rfl h))
  | _, _, .object hs, _, _, _, _, h => by
      rw [List.cons_append, List.append_assoc]
      exact .mark rfl rfl State.step?_openObject (hs.reads h)

/-- A value with blanks around it takes a state that waits for a value to the value. -/
theorem ElementText.reads : {s : List Char} → {t : Tree} → ElementText s t →
    {rest : List Char} → {stack : List Frame} → {mayClose : Bool} → StartsWith closesValue rest →
    Reads (.after t stack) rest d → Reads (.value stack mayClose) (s ++ rest) d
  | _, _, .mk hw hs hw', _, _, _, hrest, h => by
      rw [List.append_assoc, List.append_assoc]
      exact .blanks hw (hs.reads (startsWith_blanks hw' hrest) (.blanks hw' h))

/-- Elements fill an array that is open, up to the bracket behind them. -/
theorem ElementsText.reads : {s : List Char} → {ts : List Tree} → ElementsText s ts →
    {rest : List Char} → {done : List Tree} → {stack : List Frame} → {mayClose : Bool} →
    Reads (.after (.array (done.reverse ++ ts) true) stack) rest d →
    Reads (.value (.array done :: stack) mayClose) (s ++ ']' :: rest) d
  | _, _, .last hs, _, done, _, _, h => by
      refine hs.reads (startsWith_cons.mpr rfl) (.mark rfl rfl rfl ?_)
      rwa [List.reverse_cons]
  | _, _, .more hs hss, _, done, _, _, h => by
      rw [List.append_assoc, List.cons_append]
      refine hs.reads (startsWith_cons.mpr rfl) (.mark rfl rfl rfl (hss.reads ?_))
      rwa [List.reverse_cons, List.append_assoc]

/-- A member takes a state that waits for a key to the value of that key. -/
theorem MemberText.reads : {s : List Char} → {f : Option String × Tree} → MemberText s f →
    {rest : List Char} → {done : List (Option String × Tree)} → {stack : List Frame} →
    {mayClose : Bool} → StartsWith closesValue rest →
    Reads (.after f.2 (.object done f.1 :: stack)) rest d →
    Reads (.key done stack mayClose) (s ++ rest) d
  | _, _, .mk hw hk hw' hs, _, _, _, _, hrest, h => by
      simp only [List.append_assoc, List.cons_append]
      exact .blanks hw <| .quoted hk State.step?_key <| .blanks hw' <| .mark rfl rfl rfl <|
        hs.reads hrest h

/-- Members fill an object that is open, up to the brace behind them. -/
theorem MembersText.reads : {s : List Char} → {fs : List (Option String × Tree)} →
    MembersText s fs →
    {rest : List Char} → {done : List (Option String × Tree)} → {stack : List Frame} →
    {mayClose : Bool} → Reads (.after (.object (done.reverse ++ fs) true) stack) rest d →
    Reads (.key done stack mayClose) (s ++ '}' :: rest) d
  | _, _, .last hs, _, done, _, _, h => by
      refine hs.reads (startsWith_cons.mpr rfl) (.mark rfl rfl rfl ?_)
      rwa [List.reverse_cons]
  | _, _, .more hs hss, _, done, _, _, h => by
      rw [List.append_assoc, List.cons_append]
      refine hs.reads (startsWith_cons.mpr rfl) (.mark rfl rfl rfl (hss.reads ?_))
      rwa [List.reverse_cons, List.append_assoc]

end

/-- **A text is read as the tree it spells, up to its end.** -/
theorem parse_of_elementText {text : String} {t : Tree} (h : ElementText text.toList t) :
    parse text = ⟨t, true⟩ := by
  have hreads : Reads (.value [] false) (text.toList ++ []) ⟨t, true⟩ :=
    h.reads startsWith_nil State.reads_end
  rw [List.append_nil] at hreads
  exact hreads text.toList (Nat.le_refl _)

end LineMarkup.Json
