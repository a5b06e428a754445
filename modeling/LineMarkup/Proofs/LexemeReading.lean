import LineMarkup.Proofs.Spelling

/-!
# Reading tokens

What the readers of single tokens find is what the tokens' spellings say.  A token ends where no
further character can belong to it, so reading a name, a word or a number also depends on the
character behind it; reading a quoted text depends on nothing behind it.

## Main Statements

* `found_string_iff` — quoted texts, whatever comes behind them
* `found_identifier_iff`, `found_boolLiteral_iff`, `found_nullLiteral_iff` — names and words
* `numberSpelling_of_found`, `found_number_of_spelling` — decimals
* `found_binaryOp_of_leads` — the longest operator is found
-/

namespace LineMarkup.Grammar

open Reader

variable {c d : Cursor}

/-! ### Ordered choice -/

namespace Reader

variable {α : Type}

/-- What alternatives find, one of them has found. -/
theorem exists_mem_of_found_firstOf {ps : List (Reader α)} {r : α × Cursor}
    (h : (firstOf ps).found c = some r) : ∃ p ∈ ps, p.found c = some r := by
  induction ps with
  | nil => simp at h
  | cons p ps ih =>
      rw [found_firstOf_cons, Option.or_eq_some_iff] at h
      rcases h with h | ⟨-, h⟩
      · exact ⟨p, List.mem_cons_self, h⟩
      · obtain ⟨q, hq, hfound⟩ := ih h
        exact ⟨q, List.mem_cons_of_mem _ hq, hfound⟩

/-- A word is found exactly where its text stands. -/
theorem found_word_iff {text : String} {a v : α} :
    (word text v).found c = some (a, d) ↔ a = v ∧ c.Leads text.toList d := by
  simp only [word, found_bind, Option.bind_eq_some_iff, found_pure, Option.some.injEq,
    Prod.mk.injEq]
  constructor
  · rintro ⟨⟨_, e⟩, hlit, rfl, rfl⟩
    exact ⟨rfl, found_lit_iff.mp hlit⟩
  · rintro ⟨rfl, hlead⟩
    exact ⟨((), d), found_lit_iff.mpr hlead, rfl, rfl⟩

/-- A word is not found where its text does not stand. -/
theorem found_word_eq_none {text : String} {v : α} (h : ¬ text.toList <+: c.rest) :
    (word text v).found c = none := by
  rw [word, found_bind, found_lit_eq_none h]
  rfl

/-- Looking ahead succeeds if the next character is not of the class. -/
theorem found_notBefore_iff {q : Char → Bool} :
    (notBefore q).found c = some ((), d) ↔ d = c ∧ StartsWith (fun x => !q x) c.rest := by
  rw [found_notBefore]
  cases hc : c.rest with
  | nil => simp [eq_comm]
  | cons x xs => cases hx : q x <;> simp [hx, eq_comm]

end Reader

/-! ### Names -/

/-- An identifier is the longest name. -/
theorem found_identifier_iff {v : String} :
    identifier.found c = some (v, d) ↔
      ∃ n, IsName n ∧ v = String.ofList n ∧ c.Leads n d ∧
        StartsWith (fun x => !isIdentChar x) d.rest := by
  simp only [identifier, found_atom, found_bind, Option.bind_eq_some_iff, found_takeWhile,
    found_pure, Option.some.injEq, Prod.mk.injEq, Prod.exists]
  constructor
  · rintro ⟨x, e, hone, xs, e', ⟨rfl, rfl⟩, rfl, rfl⟩
    obtain ⟨hx, hlead⟩ := found_one_iff.mp hone
    refine ⟨x :: e.rest.takeWhile isIdentChar, ⟨hx, List.all_eq_true.mp List.all_takeWhile⟩, rfl,
      Cursor.leads_cons_iff.mpr ⟨e, hlead, e.leads_dropWhile isIdentChar⟩, ?_⟩
    exact startsWith_dropWhile isIdentChar e.rest
  · rintro ⟨n, hn, rfl, hlead, hend⟩
    cases n with
    | nil => exact hn.elim
    | cons x xs =>
        obtain ⟨e, hx, hxs⟩ := Cursor.leads_cons_iff.mp hlead
        obtain ⟨htake, hdrop⟩ := hxs.dropWhile_eq hn.2 hend
        exact ⟨x, e, found_one_iff.mpr ⟨hn.1, hx⟩, xs, d, ⟨htake, hdrop⟩, rfl, rfl⟩

/-- Without a character that begins a name there is no identifier. -/
theorem found_identifier_eq_none (h : StartsWith (fun x => !isIdentStart x) c.rest) :
    identifier.found c = none := by
  rw [identifier, found_atom, found_bind, found_one_eq_none h]
  rfl

/-- The text of a truth value. -/
def boolWord (b : Bool) : List Char :=
  if b then "true".toList else "false".toList

/-- A truth value is its word, with the end of a name behind it. -/
theorem found_boolLiteral_iff {b : Bool} :
    boolLiteral.found c = some (b, d) ↔
      c.Leads (boolWord b) d ∧ StartsWith (fun x => !isIdentChar x) d.rest := by
  simp only [boolLiteral, found_atom, found_bind, found_orElse, Option.bind_eq_some_iff,
    found_pure, Option.some.injEq, Prod.mk.injEq, Prod.exists, Option.or_eq_some_iff,
    found_word_iff]
  constructor
  · rintro ⟨a, e, hword, _, e', hend, rfl, rfl⟩
    obtain ⟨rfl, hend⟩ := found_notBefore_iff.mp hend
    rcases hword with ⟨rfl, hlead⟩ | ⟨-, rfl, hlead⟩
    · exact ⟨hlead, hend⟩
    · exact ⟨hlead, hend⟩
  · rintro ⟨hlead, hend⟩
    refine ⟨b, d, ?_, (), d, found_notBefore_iff.mpr ⟨rfl, hend⟩, rfl, rfl⟩
    cases b with
    | true => exact .inl ⟨rfl, hlead⟩
    | false =>
        refine .inr ⟨found_word_eq_none ?_, rfl, hlead⟩
        rw [hlead.rest]
        simp [boolWord]

/-- Null is one of two words, with the end of a name behind it. -/
theorem found_nullLiteral_iff :
    nullLiteral.found c = some ((), d) ↔
      (c.Leads "null".toList d ∨ c.Leads "undefined".toList d) ∧
        StartsWith (fun x => !isIdentChar x) d.rest := by
  simp only [nullLiteral, found_atom, found_bind, found_orElse, Option.bind_eq_some_iff,
    Prod.exists, Option.or_eq_some_iff, found_lit_iff]
  constructor
  · rintro ⟨_, e, hword, hend⟩
    obtain ⟨rfl, hend⟩ := found_notBefore_iff.mp hend
    rcases hword with hlead | ⟨-, hlead⟩
    · exact ⟨.inl hlead, hend⟩
    · exact ⟨.inr hlead, hend⟩
  · rintro ⟨hlead, hend⟩
    refine ⟨(), d, ?_, found_notBefore_iff.mpr ⟨rfl, hend⟩⟩
    rcases hlead with hlead | hlead
    · exact .inl hlead
    · refine .inr ⟨found_lit_eq_none ?_, hlead⟩
      rw [hlead.rest]
      simp

/-! ### Quoted texts -/

/-- Reading an inside ends at its quote, whatever comes behind. -/
theorem Inside.body {q : Char} {s : List Char} (h : Inside q s) (hq : q ≠ '\\') (rest : List Char) :
    Text.Quoted.body q (s ++ q :: rest) = (s, q :: rest) := by
  induction h with
  | nil =>
      cases rest with
      | nil => simp [Text.Quoted.body, hq]
      | cons x rest => simp [Text.Quoted.body, hq]
  | pair x _ ih => simp [Text.Quoted.body, ih]
  | @plain s x hne hslash _ ih =>
      cases hs : s ++ q :: rest with
      | nil => simp at hs
      | cons y ys =>
          rw [hs] at ih
          simp [Text.Quoted.body, hs, hslash, hne, ih]

/-- What reading takes for an inside is one, and nothing is lost. -/
theorem inside_of_body {q : Char} {cs s rest : List Char}
    (h : Text.Quoted.body q cs = (s, rest)) : Inside q s ∧ cs = s ++ rest := by
  induction cs using Text.Quoted.body.induct q generalizing s rest with
  | case1 =>
      simp only [Text.Quoted.body, Prod.mk.injEq] at h
      obtain ⟨rfl, rfl⟩ := h
      exact ⟨.nil, rfl⟩
  | case2 =>
      simp only [Text.Quoted.body, Prod.mk.injEq] at h
      obtain ⟨rfl, rfl⟩ := h
      exact ⟨.nil, rfl⟩
  | case3 x cs inside after hbody ih =>
      simp only [Text.Quoted.body, hbody, Prod.mk.injEq] at h
      obtain ⟨rfl, rfl⟩ := h
      obtain ⟨hinside, rfl⟩ := ih hbody
      exact ⟨.pair x hinside, rfl⟩
  | case4 rest' h₁ h₂ =>
      rw [Text.Quoted.body] at h
      · simp only [if_true, Prod.mk.injEq] at h
        obtain ⟨rfl, rfl⟩ := h
        exact ⟨.nil, rfl⟩
      · exact h₁
      · exact h₂
  | case5 x cs h₁ h₂ hne inside after hbody ih =>
      rw [Text.Quoted.body] at h
      · simp only [hne, if_false, hbody, Prod.mk.injEq] at h
        obtain ⟨rfl, rfl⟩ := h
        obtain ⟨hinside, rfl⟩ := ih hbody
        have hslash : x ≠ '\\' := by
          rintro rfl
          cases hcs : inside ++ after with
          | nil => exact h₁ rfl hcs
          | cons y ys => exact h₂ y ys rfl hcs
        exact ⟨.plain hne hslash hinside, rfl⟩
      · exact h₁
      · exact h₂

/-- The inside of a literal goes up to the first mark that no backslash protects. -/
private theorem found_quotedBody_iff {q : Char} {s : List Char} :
    (quotedBody q).found c = some (s, d) ↔
      Text.Quoted.body q c.rest = (s, d.rest) ∧ c.Leads s d := by
  show some ((Text.Quoted.body q c.rest).1,
    c.past (Text.Quoted.body q c.rest).1 (Text.Quoted.body q c.rest).2) = some (s, d) ↔ _
  cases hbody : Text.Quoted.body q c.rest with
  | mk inside rest =>
      have hrest := (inside_of_body hbody).2
      simp only [Option.some.injEq, Prod.mk.injEq]
      constructor
      · rintro ⟨rfl, rfl⟩
        exact ⟨⟨rfl, rfl⟩, Cursor.leads_past hrest⟩
      · rintro ⟨⟨rfl, rfl⟩, hlead⟩
        exact ⟨rfl, (Cursor.leads_past hrest).unique hlead⟩

/-- A literal in a given mark stands for its inside with the escapes undone. -/
private theorem found_quotedBy_iff {q : Char} (hq : q ≠ '\\') {v : String} :
    (quotedBy q).found c = some (v, d) ↔
      ∃ s, Inside q s ∧ v = String.ofList (Text.Quoted.unescape s) ∧ c.Leads (q :: s ++ [q]) d := by
  simp only [quotedBy, found_bind, Option.bind_eq_some_iff, found_pure, Option.some.injEq,
    Prod.mk.injEq, Prod.exists, found_one_iff, found_quotedBody_iff]
  constructor
  · rintro ⟨x, e, ⟨hx, hopen⟩, s, e', ⟨hbody, hs⟩, y, f, ⟨hy, hclose⟩, rfl, rfl⟩
    obtain rfl := eq_of_beq hx
    obtain rfl := eq_of_beq hy
    exact ⟨s, (inside_of_body hbody).1, rfl, (hopen.trans hs).trans hclose⟩
  · rintro ⟨s, hinside, rfl, hlead⟩
    rw [List.cons_append, Cursor.leads_cons_iff] at hlead
    obtain ⟨e, hopen, hlead⟩ := hlead
    obtain ⟨f, hs, hclose⟩ := Cursor.leads_append_iff.mp hlead
    have hbody : Text.Quoted.body q e.rest = (s, f.rest) := by
      rw [hs.rest, hclose.rest, List.singleton_append, hinside.body hq]
    exact ⟨q, e, ⟨by simp, hopen⟩, s, f, ⟨hbody, hs⟩, q, d, ⟨by simp, hclose⟩, rfl, rfl⟩

/-- **A quoted text ends with its closing quote**, whatever comes behind. -/
theorem found_string_iff {v : String} :
    string.found c = some (v, d) ↔
      ∃ q s, (q = '"' ∨ q = '\'') ∧ Inside q s ∧
        v = String.ofList (Text.Quoted.unescape s) ∧ c.Leads (q :: s ++ [q]) d := by
  simp only [string, found_call, found_orElse, Option.or_eq_some_iff]
  constructor
  · rintro (h | ⟨-, h⟩)
    · obtain ⟨s, h⟩ := (found_quotedBy_iff (by decide)).mp h
      exact ⟨'"', s, .inl rfl, h⟩
    · obtain ⟨s, h⟩ := (found_quotedBy_iff (by decide)).mp h
      exact ⟨'\'', s, .inr rfl, h⟩
  · rintro ⟨q, s, rfl | rfl, h⟩
    · exact .inl ((found_quotedBy_iff (by decide)).mpr ⟨s, h⟩)
    · refine .inr ⟨?_, (found_quotedBy_iff (by decide)).mpr ⟨s, h⟩⟩
      rw [quotedBy, found_bind, found_one_eq_none]
      · rfl
      · rw [h.2.2.rest]
        simp

/-- What is escaped for double quotes is an inside for them. -/
theorem inside_escape (cs : List Char) : Inside '"' (Text.Quoted.escape cs) := by
  induction cs with
  | nil => exact .nil
  | cons c cs ih =>
      rw [Text.Quoted.escape_cons]
      rcases Text.Quoted.escapeChar_cases c with ⟨x, hpair, -⟩ | ⟨hquote, hslash, hplain⟩
      · rw [hpair]
        exact .pair x ih
      · rw [hplain]
        exact .plain hquote hslash ih

/-- A quoted text is a literal for the text. -/
theorem atomSpelling_encode (cs : List Char) :
    AtomSpelling (Text.Quoted.encode cs) (.string (String.ofList cs)) := by
  have h := AtomSpelling.string (.inl rfl) (inside_escape cs)
  rwa [Text.Quoted.unescape_escape] at h

/-- A text written in quotes is read back. -/
theorem found_string_of_encode {cs : List Char} (h : c.Leads (Text.Quoted.encode cs) d) :
    string.found c = some (String.ofList cs, d) := by
  rw [found_string_iff]
  refine ⟨'"', Text.Quoted.escape cs, .inl rfl, inside_escape cs, ?_, h⟩
  rw [Text.Quoted.unescape_escape]

/-- Without a quotation mark there is no text literal. -/
theorem found_string_eq_none (h : StartsWith (fun x => x != '"' && x != '\'') c.rest) :
    string.found c = none := by
  simp only [string, found_call, found_orElse, quotedBy, found_bind]
  rw [found_one_eq_none (h.mono (by simp_all)), found_one_eq_none (h.mono (by simp_all))]
  rfl

/-! ### Decimals -/

/-- No further character can belong to a number without a point. -/
structure NumberEnds (t : List Char) : Prop where
  /-- No digit comes next. -/
  digit : StartsWith (fun x => !x.isDigit) t
  /-- No point with a digit behind it comes next. -/
  point : ∀ r, t = '.' :: r → StartsWith (fun x => !x.isDigit) r

/-- A stretch of a class is not empty, and it is the longest. -/
theorem found_takeWhile1_iff {q : Char → Bool} {s : List Char} :
    (takeWhile1 q).found c = some (s, d) ↔
      (s ≠ [] ∧ ∀ x ∈ s, q x = true) ∧ c.Leads s d ∧ StartsWith (fun x => !q x) d.rest := by
  rw [found_takeWhile1]
  constructor
  · intro h
    split at h
    · simp at h
    · rename_i hne
      simp only [Option.some.injEq, Prod.mk.injEq] at h
      obtain ⟨rfl, rfl⟩ := h
      exact ⟨⟨hne, List.all_eq_true.mp List.all_takeWhile⟩, c.leads_dropWhile q,
        startsWith_dropWhile q c.rest⟩
  · rintro ⟨⟨hne, hs⟩, hlead, hend⟩
    obtain ⟨htake, hdrop⟩ := hlead.dropWhile_eq hs hend
    rw [htake, hdrop, if_neg hne]

/-- Without a character of the class there is no stretch. -/
theorem found_takeWhile1_eq_none {q : Char → Bool} (h : StartsWith (fun x => !q x) c.rest) :
    (takeWhile1 q).found c = none := by
  rw [found_takeWhile1, if_pos]
  cases hc : c.rest with
  | nil => rfl
  | cons x xs =>
      rw [hc] at h
      simp_all

/-- What `number` makes of its digits. -/
private theorem found_number (c : Cursor) :
    number.found c = ((takeWhile1 Char.isDigit).found c).bind fun r =>
      match ((lit ".").found r.2).bind fun r' => (takeWhile1 Char.isDigit).found r'.2 with
      | none => some (decimalValue r.1 [], r.2)
      | some (decimals, e) => some (decimalValue r.1 decimals, e) := by
  rw [number, found_atom, found_bind]
  congr 1
  funext r
  rw [found_bind, found_option, found_bind]
  cases ((lit ".").found r.2).bind fun r' => (takeWhile1 Char.isDigit).found r'.2 with
  | none => rfl
  | some r' => rfl

/-- What is read as a number is a spelling of it. -/
theorem numberSpelling_of_found {x : Float} (h : number.found c = some (x, d)) :
    ∃ s, NumberSpelling s x ∧ c.Leads s d := by
  rw [found_number, Option.bind_eq_some_iff] at h
  obtain ⟨⟨ds, e⟩, hwhole, h⟩ := h
  obtain ⟨hds, hlead, -⟩ := found_takeWhile1_iff.mp hwhole
  split at h
  · simp only [Option.some.injEq, Prod.mk.injEq] at h
    obtain ⟨rfl, rfl⟩ := h
    exact ⟨ds, .whole hds, hlead⟩
  · rename_i es f hpoint
    simp only [Option.some.injEq, Prod.mk.injEq] at h
    obtain ⟨rfl, rfl⟩ := h
    obtain ⟨⟨_, g⟩, hlit, hdecimals⟩ := Option.bind_eq_some_iff.mp hpoint
    obtain ⟨hes, hlead', -⟩ := found_takeWhile1_iff.mp hdecimals
    exact ⟨ds ++ '.' :: es, .point hds hes,
      hlead.trans (Cursor.leads_cons_iff.mpr ⟨g, found_lit_iff.mp hlit, hlead'⟩)⟩

/-- A spelled number is read where it may end. -/
theorem found_number_of_spelling {s : List Char} {x : Float} (h : NumberSpelling s x)
    (hlead : c.Leads s d) (hend : NumberEnds d.rest) : number.found c = some (x, d) := by
  rw [found_number]
  cases h with
  | whole hds =>
      rw [found_takeWhile1_iff.mpr ⟨hds, hlead, hend.digit⟩, Option.bind_some]
      have hpoint : ((lit ".").found d).bind
          (fun r => (takeWhile1 Char.isDigit).found r.2) = none := by
        rw [Option.bind_eq_none_iff]
        rintro ⟨_, e⟩ hlit
        have hrest := (found_lit_iff.mp hlit).rest
        exact found_takeWhile1_eq_none (hend.point e.rest hrest)
      simp only [hpoint]
  | @point ds es hds hes =>
      obtain ⟨e, hwhole, hlead⟩ := Cursor.leads_append_iff.mp hlead
      obtain ⟨f, hlit, hdecimals⟩ := Cursor.leads_cons_iff.mp hlead
      have hstop : StartsWith (fun x => !x.isDigit) e.rest := by
        rw [hlit.rest]
        simp
      rw [found_takeWhile1_iff.mpr ⟨hds, hwhole, hstop⟩, Option.bind_some]
      have hpoint : ((lit ".").found e).bind
          (fun r => (takeWhile1 Char.isDigit).found r.2) = some (es, d) := by
        have hpoint : (lit ".").found e = some ((), f) := found_lit_iff.mpr hlit
        rw [hpoint, Option.bind_some]
        exact found_takeWhile1_iff.mpr ⟨hes, hdecimals, hend.digit⟩
      simp only [hpoint]

/-- A number begins with a digit. -/
theorem found_number_eq_none (h : StartsWith (fun x => !x.isDigit) c.rest) :
    number.found c = none := by
  rw [found_number, found_takeWhile1_eq_none h]
  rfl

/-! ### Operators -/

/-- A prefixed operator is its symbol. -/
theorem found_unaryOp_iff {op : UnaryOp} :
    unaryOp.found c = some (op, d) ↔ c.Leads op.symbol.toList d := by
  simp only [unaryOp, found_call, found_orElse, Option.or_eq_some_iff, found_word_iff]
  constructor
  · rintro (⟨rfl, h⟩ | ⟨-, rfl, h⟩)
    · exact h
    · exact h
  · intro h
    cases op with
    | not => exact .inl ⟨rfl, h⟩
    | neg =>
        refine .inr ⟨found_word_eq_none ?_, rfl, h⟩
        rw [h.rest]
        simp [UnaryOp.symbol]

/-- Without one of the two symbols there is no prefixed operator. -/
theorem found_unaryOp_eq_none (h : StartsWith (fun x => x != '!' && x != '-') c.rest) :
    unaryOp.found c = none := by
  have hnot : StartsWith (fun x => x != '!') c.rest := h.mono (by simp_all)
  have hminus : StartsWith (fun x => x != '-') c.rest := h.mono (by simp_all)
  simp only [unaryOp, found_call, found_orElse, word, found_bind]
  rw [found_lit_eq_none_of_startsWith "!" rfl hnot, found_lit_eq_none_of_startsWith "-" rfl hminus]
  rfl

/-- What is read as an operator between operands is its symbol. -/
theorem leads_of_found_binaryOp {op : BinaryOp} (h : binaryOp.found c = some (op, d)) :
    c.Leads op.symbol.toList d := by
  rw [binaryOp, found_call] at h
  obtain ⟨p, hp, hfound⟩ := exists_mem_of_found_firstOf h
  obtain ⟨op', -, rfl⟩ := List.mem_map.mp hp
  obtain ⟨rfl, hlead⟩ := found_word_iff.mp hfound
  exact hlead

/-- **The longest operator is found**: a symbol is not cut short, unless `=` comes behind it. -/
theorem found_binaryOp_of_leads {op : BinaryOp} (h : c.Leads op.symbol.toList d)
    (hend : StartsWith (fun x => x != '=') d.rest) : binaryOp.found c = some (op, d) := by
  have hhit : (binarySymbol op).found c = some (op, d) := found_word_iff.mpr ⟨rfl, h⟩
  have hmiss (op' : BinaryOp) (hop : ¬ op'.symbol.toList <+: op.symbol.toList ++ d.rest) :
      (binarySymbol op').found c = none :=
    found_word_eq_none (by rwa [h.rest])
  have heq : ¬ ['='] <+: d.rest := by
    rintro ⟨r, hr⟩
    rw [← hr] at hend
    simp at hend
  rw [binaryOp, found_call]
  cases op <;> simp [hhit, hmiss, heq, BinaryOp.symbol]

/-- Without a character that opens a symbol there is no operator. -/
theorem found_binaryOp_eq_none (h : StartsWith (fun x => !opensBinaryOp x) c.rest) :
    binaryOp.found c = none := by
  cases hfound : binaryOp.found c with
  | none => rfl
  | some r =>
      obtain ⟨op, d⟩ := r
      have hlead := leads_of_found_binaryOp hfound
      rw [hlead.rest] at h
      cases op <;> simp [BinaryOp.symbol, opensBinaryOp] at h

end LineMarkup.Grammar
