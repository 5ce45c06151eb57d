import Invoicing.Json.Tree

set_option autoImplicit false

/-! # Reading a written tree

A tree whose lexemes are well formed is read back from its text (`Json.parse?_render`). The scanner finds the
tokens again, for a number is always followed by the end or by a character that is no part of one
(`Closes`), and the builder finds the tree again. -/

namespace Invoicing.Json

/-! ## Tokens -/

namespace Text

/-- A body that ends where it should when it is read up to the closing quote. -/
def IsBody (body : List Char) : Prop := ∀ rest, body? [] (body ++ '"' :: rest) = some (body, rest)

theorem body?_escapeChar (done rest : List Char) (c : Char) :
    body? done (escapeChar c ++ rest) = body? ((escapeChar c).reverse ++ done) rest := by
  unfold escapeChar
  -- The seven characters with an escape of one letter.
  iterate 7
    split
    · rfl
  split
  · next hcode =>
    have hdigits : ∀ n < 0x20, ['0', '0', Nat.digitChar (n / 16), Nat.digitChar (n % 16)].all Hex.isDigit := by
      decide
    simp only [escapeCode, List.cons_append, List.nil_append, body?, hdigits _ hcode, if_true]
    rfl
  · next hquote hslash _ _ _ _ _ hcode =>
    rw [List.cons_append, List.nil_append, body?.eq_4 _ _ _ (by simp_all) (by simp_all) (by simp_all),
      if_neg hcode]
    rfl

theorem isBody_escape (cs : List Char) : IsBody (escape cs) := by
  intro rest
  have hbody (done : List Char) :
      body? done (escape cs ++ '"' :: rest) = some (done.reverse ++ escape cs, rest) := by
    induction cs generalizing done with
    | nil => simp [escape, body?]
    | cons c cs ih =>
      rw [escape, List.flatMap_cons, List.append_assoc, body?_escapeChar, ← escape, ih]
      simp
  exact hbody []

end Text

namespace Token

/-- Lexemes that the scanner takes as a whole. -/
def Printable : Token → Prop
  | number lexeme => Number.isLexeme lexeme = true ∧ lexeme.all Number.isPart = true
  | text body => Text.IsBody body
  | _ => True

/-- A text that starts with no part of a number. -/
def Closes (rest : List Char) : Prop := ∀ c ∈ rest.head?, Number.isPart c = false

theorem closes_nil : Closes [] := nofun

/-- A number begins with a digit or a sign. -/
theorem head_of_isLexeme {c : Char} {cs : List Char} (h : Number.isLexeme (c :: cs) = true) :
    c.isDigit = true ∨ c = '-' := by
  by_cases hsign : c = '-'
  · exact .inr hsign
  · refine .inl ?_
    by_cases hzero : c = '0'
    · rw [hzero]
      decide
    · have hskip : Number.skipSign (c :: cs) = c :: cs := by
        unfold Number.skipSign
        split
        · next heq => exact absurd (List.cons.inj heq).1 hsign
        · rfl
      have hwhole : Number.skipWhole? (c :: cs) = Number.skipDigits? (c :: cs) := by
        unfold Number.skipWhole?
        split
        · next heq => exact absurd (List.cons.inj heq).1 hzero
        · rfl
      cases hdigit : c.isDigit with
      | true => rfl
      | false => simp [Number.isLexeme, hskip, hwhole, Number.skipDigits?, hdigit] at h

theorem scan_of_lexeme? {done : List Token} {c : Char} {rest rest' : List Char} {t : Token}
    (hblank : isBlank c = false) (hchar : ofChar? c = none) (hlexeme : lexeme? (c :: rest) = some (t, rest')) :
    scan done (c :: rest) = scan (t :: done) rest' := by
  rw [scan]
  simp only [hblank, hchar, Bool.false_eq_true, if_false]
  split
  · next t' rest'' h =>
    cases hlexeme.symm.trans h
    rfl
  · next h => cases hlexeme.symm.trans h

theorem lexeme?_number {lexeme rest : List Char} (hprint : (number lexeme).Printable) (hcloses : Closes rest) :
    lexeme? (lexeme ++ rest) = some (number lexeme, rest) := by
  obtain ⟨hlexeme, hparts⟩ := hprint
  have hrest : rest.takeWhile Number.isPart = [] ∧ rest.dropWhile Number.isPart = rest := by
    cases rest with
    | nil => exact ⟨rfl, rfl⟩
    | cons c rest => simp [hcloses c rfl]
  cases lexeme with
  | nil => cases hlexeme
  | cons c cs =>
    have hpart : ∀ c' ∈ cs, Number.isPart c' = true := by simp_all
    have hhead : (c.isDigit || c == '-') = true := by
      rcases head_of_isLexeme hlexeme with h | h <;> simp [h]
    have hquote : c ≠ '"' := by
      rintro rfl
      simp at hhead
    rw [List.cons_append, lexeme?.eq_2 _ _ (by simpa using hquote), if_pos hhead,
      List.takeWhile_append_of_pos hpart, List.dropWhile_append_of_pos hpart, hrest.1, hrest.2, List.append_nil,
      if_pos hlexeme]

/-- A digit is neither a blank nor a token of its own. -/
theorem of_isDigit {c : Char} (hc : c.isDigit = true) : isBlank c = false ∧ ofChar? c = none := by
  have hne {x : Char} (hx : x.isDigit = false) : c ≠ x := by
    rintro rfl
    rw [hc] at hx
    cases hx
  constructor
  · have hspace : c ≠ ' ' ∧ c ≠ '\t' ∧ c ≠ '\n' ∧ c ≠ '\r' := ⟨hne rfl, hne rfl, hne rfl, hne rfl⟩
    simp [isBlank, hspace]
  · unfold ofChar?
    split
    case h_7 => rfl
    all_goals exact absurd rfl (hne rfl)

/-- The scanner finds a token again, if a number is not followed by more parts of a number. -/
theorem scan_spelling {t : Token} (ht : t.Printable) (done : List Token) {rest : List Char}
    (hcloses : ∀ lexeme, t = .number lexeme → Closes rest) :
    scan done (t.spelling ++ rest) = scan (t :: done) rest := by
  cases t with
  | number lexeme =>
    have hscan := lexeme?_number ht (hcloses lexeme rfl)
    cases lexeme with
    | nil => cases ht.1
    | cons c cs =>
      have hhead : isBlank c = false ∧ ofChar? c = none := by
        rcases head_of_isLexeme ht.1 with h | rfl
        · exact of_isDigit h
        · decide
      exact scan_of_lexeme? hhead.1 hhead.2 hscan
  | text body =>
    have hlexeme : lexeme? ('"' :: (body ++ '"' :: rest)) = some (text body, rest) := by
      rw [lexeme?, ht rest]
      rfl
    rw [spelling, List.append_assoc]
    exact scan_of_lexeme? rfl rfl hlexeme
  | null => exact scan_of_lexeme? rfl rfl rfl
  | bool b =>
    cases b with
    | true => exact scan_of_lexeme? rfl rfl rfl
    | false => exact scan_of_lexeme? rfl rfl rfl
  | _ =>
    rw [spelling, List.singleton_append, scan]
    rfl

end Token

/-! ## Scanning -/

/-- A tree all of whose lexemes are well formed. -/
def Printable (j : Json) : Prop := ∀ t ∈ j.tokens, t.Printable

/-- The text of some tokens. -/
def spell (ts : List Token) : List Char := ts.flatMap Token.spelling

theorem spell_append (ts us : List Token) (rest : List Char) :
    spell (ts ++ us) ++ rest = spell ts ++ (spell us ++ rest) := by
  rw [spell, List.flatMap_append, List.append_assoc, spell, spell]

/-- A token that is no number is found again whatever follows. -/
theorem scan_spell_cons {t : Token} (ht : t.Printable) (hnumber : ∀ lexeme, t ≠ .number lexeme)
    (ts done : List Token) (rest : List Char) :
    Token.scan done (spell (t :: ts) ++ rest) = Token.scan (t :: done) (spell ts ++ rest) := by
  rw [spell, List.flatMap_cons, List.append_assoc]
  exact Token.scan_spelling ht done fun lexeme hlexeme => absurd hlexeme (hnumber lexeme)

theorem closes_spell {t : Token} {c : Char} {cs : List Char} (hspelling : t.spelling = c :: cs)
    (hc : Number.isPart c = false) (ts : List Token) (rest : List Char) :
    Token.Closes (spell (t :: ts) ++ rest) := by
  rw [spell, List.flatMap_cons, hspelling]
  rintro _ ⟨⟩
  exact hc

mutual

theorem scan_tokens (j : Json) (hprint : ∀ t ∈ j.tokens, t.Printable) (done : List Token) {rest : List Char}
    (hcloses : Token.Closes rest) :
    Token.scan done (spell j.tokens ++ rest) = Token.scan (j.tokens.reverse ++ done) rest := by
  match j with
  | null | bool b | number lexeme | text body =>
    rw [tokens] at hprint ⊢
    rw [spell, List.flatMap_singleton]
    exact Token.scan_spelling (hprint _ List.mem_cons_self) done fun _ _ => hcloses
  | array elements =>
    rw [tokens] at hprint ⊢
    rw [scan_spell_cons (hprint _ List.mem_cons_self) (by nofun),
      scan_elementTokens elements (fun t ht => hprint t (List.mem_cons_of_mem _ ht))]
    simp
  | object members =>
    rw [tokens] at hprint ⊢
    rw [scan_spell_cons (hprint _ List.mem_cons_self) (by nofun),
      scan_memberTokens members (fun t ht => hprint t (List.mem_cons_of_mem _ ht))]
    simp

theorem scan_elementTokens (elements : List Json) (hprint : ∀ t ∈ elementTokens elements, t.Printable)
    (done : List Token) (rest : List Char) :
    Token.scan done (spell (elementTokens elements) ++ rest) =
      Token.scan ((elementTokens elements).reverse ++ done) rest := by
  match elements with
  | [] =>
    rw [elementTokens] at hprint ⊢
    exact scan_spell_cons (hprint _ List.mem_cons_self) (by nofun) [] done rest
  | [v] =>
    rw [elementTokens] at hprint ⊢
    rw [spell_append, scan_tokens v (fun t ht => hprint t (List.mem_append_left _ ht)) done
      (closes_spell (t := .closeBracket) rfl rfl _ _), scan_spell_cons (hprint _ (by simp)) (by nofun)]
    simp [spell]
  | v :: w :: rest' =>
    rw [elementTokens] at hprint ⊢
    · rw [spell_append, scan_tokens v (fun t ht => hprint t (List.mem_append_left _ ht)) done
        (closes_spell (t := .comma) rfl rfl _ _), scan_spell_cons (hprint _ (by simp)) (by nofun),
        scan_elementTokens (w :: rest')
          fun t ht => hprint t (List.mem_append_right _ (List.mem_cons_of_mem _ ht))]
      simp
    all_goals nofun

theorem scan_memberTokens (members : List (List Char × Json))
    (hprint : ∀ t ∈ memberTokens members, t.Printable) (done : List Token) (rest : List Char) :
    Token.scan done (spell (memberTokens members) ++ rest) =
      Token.scan ((memberTokens members).reverse ++ done) rest := by
  match members with
  | [] =>
    rw [memberTokens] at hprint ⊢
    exact scan_spell_cons (hprint _ List.mem_cons_self) (by nofun) [] done rest
  | [(key, v)] =>
    rw [memberTokens] at hprint ⊢
    rw [scan_spell_cons (hprint _ (by simp)) (by nofun), scan_spell_cons (hprint _ (by simp)) (by nofun),
      spell_append, scan_tokens v (fun t ht => hprint t (by simp [ht])) _
      (closes_spell (t := .closeBrace) rfl rfl _ _), scan_spell_cons (hprint _ (by simp)) (by nofun)]
    simp [spell]
  | (key, v) :: (key', v') :: rest' =>
    rw [memberTokens] at hprint ⊢
    · rw [scan_spell_cons (hprint _ (by simp)) (by nofun), scan_spell_cons (hprint _ (by simp)) (by nofun),
        spell_append, scan_tokens v (fun t ht => hprint t (by simp [ht])) _
        (closes_spell (t := .comma) rfl rfl _ _), scan_spell_cons (hprint _ (by simp)) (by nofun),
        scan_memberTokens ((key', v') :: rest') fun t ht => hprint t (by simp [ht])]
      simp
    all_goals nofun

end

/-! ## Building -/

/-- The first token of a value closes nothing. -/
theorem tokens_eq_cons (j : Json) : ∃ t ts, j.tokens = t :: ts ∧ t ≠ .closeBracket := by
  cases j <;> exact ⟨_, _, by rw [tokens], by nofun⟩

theorem build_openBracket {frames : List Frame} {t : Token} {ts : List Token} (ht : t ≠ .closeBracket) :
    build none frames (.openBracket :: t :: ts) = build none (.array [] :: frames) (t :: ts) := by
  rw [build.eq_7]
  simpa using ht

/-- The first token of an element that is left closes nothing. -/
theorem elementTokens_eq_cons (v : Json) (rest : List Json) :
    ∃ t ts, elementTokens (v :: rest) = t :: ts ∧ t ≠ .closeBracket := by
  obtain ⟨t, ts, htokens, ht⟩ := tokens_eq_cons v
  cases rest with
  | nil => exact ⟨t, _, by rw [elementTokens, htokens, List.cons_append], ht⟩
  | cons w rest => exact ⟨t, _, by rw [elementTokens, htokens, List.cons_append]; nofun, ht⟩

/-- Members begin with the first key. -/
theorem memberTokens_eq_cons (key : List Char) (v : Json) (rest : List (List Char × Json)) :
    memberTokens ((key, v) :: rest) = .text key :: .colon :: (memberTokens ((key, v) :: rest)).drop 2 := by
  cases rest with
  | nil => rw [memberTokens]; rfl
  | cons member rest => rw [memberTokens]; rfl; nofun

mutual

theorem build_tokens (j : Json) (frames : List Frame) (ts : List Token) :
    build none frames (j.tokens ++ ts) = build (some j) frames ts := by
  match j with
  | null => rw [tokens, List.singleton_append, build]
  | bool b => rw [tokens, List.singleton_append, build]
  | number lexeme => rw [tokens, List.singleton_append, build]
  | text body => rw [tokens, List.singleton_append, build]
  | array [] =>
    rw [tokens, elementTokens]
    exact build.eq_6 _ _
  | array (v :: rest) =>
    have hbuild := build_elementTokens (v :: rest) (by nofun) [] frames ts
    obtain ⟨t, ts', htokens, ht⟩ := elementTokens_eq_cons v rest
    rw [tokens, List.cons_append]
    rw [htokens, List.cons_append] at hbuild ⊢
    rw [build_openBracket ht]
    exact hbuild
  | object [] =>
    rw [tokens, memberTokens]
    exact build.eq_8 _ _
  | object ((key, v) :: rest) =>
    have hbuild := build_memberTokens ((key, v) :: rest) [] key v rest rfl frames ts
    rw [tokens, memberTokens_eq_cons, List.cons_append, List.cons_append, List.cons_append, build]
    exact hbuild

theorem build_elementTokens (elements : List Json) (hne : elements ≠ []) (done : List Json)
    (frames : List Frame) (ts : List Token) :
    build none (.array done :: frames) (elementTokens elements ++ ts) =
      build (some (.array (done.reverse ++ elements))) frames ts := by
  match elements with
  | [] => exact absurd rfl hne
  | [v] =>
    rw [elementTokens, List.append_assoc, build_tokens v, List.singleton_append, build]
    simp
  | v :: w :: rest =>
    rw [elementTokens, List.append_assoc, build_tokens v, List.cons_append, build,
      build_elementTokens (w :: rest) (by nofun)]
    · simp
    · nofun

theorem build_memberTokens (members : List (List Char × Json)) (done : List (List Char × Json))
    (key : List Char) (v : Json) (rest : List (List Char × Json)) (hmembers : members = (key, v) :: rest)
    (frames : List Frame) (ts : List Token) :
    build none (.object done key :: frames) ((memberTokens members).drop 2 ++ ts) =
      build (some (.object (done.reverse ++ members))) frames ts := by
  match members with
  | [(key', v')] =>
    obtain ⟨hmember, -⟩ := List.cons.inj hmembers
    obtain ⟨hkey, hv⟩ := Prod.mk.inj hmember
    subst key v
    rw [memberTokens]
    show build none _ ((v'.tokens ++ [.closeBrace]) ++ ts) = _
    rw [List.append_assoc, build_tokens v', List.singleton_append, build]
    simp
  | (key', v') :: (key'', v'') :: rest' =>
    obtain ⟨hmember, -⟩ := List.cons.inj hmembers
    obtain ⟨hkey, hv⟩ := Prod.mk.inj hmember
    subst key v
    rw [memberTokens]
    · show build none _ ((v'.tokens ++ .comma :: memberTokens ((key'', v'') :: rest')) ++ ts) = _
      rw [List.append_assoc, build_tokens v', List.cons_append, memberTokens_eq_cons, List.cons_append,
        List.cons_append, build, build_memberTokens ((key'', v'') :: rest') _ _ _ _ rfl]
      simp
    · nofun

end

/-- **A tree with well-formed lexemes is read back from its text.** -/
theorem parse?_render {j : Json} (hprint : j.Printable) : parse? j.render = some j := by
  have hscan := scan_tokens j hprint [] Token.closes_nil
  have hbuild := build_tokens j [] []
  rw [List.append_nil, List.append_nil] at hscan
  rw [List.append_nil] at hbuild
  rw [parse?, render, String.toList_ofList, ← spell, hscan, Token.scan]
  simpa [build] using hbuild

end Invoicing.Json
