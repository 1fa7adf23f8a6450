import SettingsLang.Toml.Quote
import SettingsLang.Toml.Text

/-!
Strings are read back as they were written. A basic string holds every text, since it has escapes; a
literal string is written only for a text that it holds as it is. On several lines the quotes
decide: a reader never stands before three of them unless only quotes are left of the text, at most
two, and then it closes the string where it ends.
-/

namespace SettingsLang.Toml

theorem isPlain_of_needsEscape {c : Char} (h : needsEscape c = false) (hbreak : c ≠ '\n') :
    isPlain c = true := by
  simp only [needsEscape, isPlain, Bool.and_eq_false_iff, Bool.or_eq_true, Bool.and_eq_true,
    Bool.or_eq_false_iff, bne_eq_false_iff_eq, beq_iff_eq, bne_iff_ne, decide_eq_true_eq,
    decide_eq_false_iff_not, beq_eq_false_iff_ne] at h ⊢
  obtain (htab | hnewline) | ⟨hlow, hdelete⟩ := h
  · exact Or.inl htab
  · exact absurd hnewline hbreak
  · exact Or.inr ⟨by omega, hdelete⟩

theorem ne_breaks_of_isPlain {c : Char} (h : isPlain c = true) : c ≠ '\n' ∧ c ≠ '\r' := by
  constructor
  · rintro rfl
    cases h
  · rintro rfl
    cases h

theorem digitValue?_hexCapital :
    ∀ n < 16, Decimal.digitValue? (hexCapital n) = some n := by
  decide

theorem scalarValue?_hexCapital {n : Nat} (h : n < 256) :
    scalarValue? ['0', '0', hexCapital (n / 16), hexCapital (n % 16)] = some (Char.ofNat n) := by
  have hhigh := digitValue?_hexCapital (n / 16) (by omega)
  have hlow := digitValue?_hexCapital (n % 16) (by omega)
  have hzero : Decimal.digitValue? '0' = some 0 := by decide
  have hvalue : Decimal.ofDigits 16 ['0', '0', hexCapital (n / 16), hexCapital (n % 16)] = n := by
    simp only [Decimal.ofDigits, List.foldl_cons, List.foldl_nil, hzero, hhigh, hlow,
      Option.getD_some]
    omega
  have hdigits : ['0', '0', hexCapital (n / 16), hexCapital (n % 16)].all
      (Decimal.isDigitOf 16) = true := by
    have hbound : n / 16 < 16 := by omega
    have hrest : n % 16 < 16 := by omega
    simp [Decimal.isDigitOf, hzero, hhigh, hlow, hbound, hrest]
  have hscalar : n < 0xD800 := by omega
  simp [scalarValue?, hvalue, hdigits, hscalar]

/-- What follows a backslash and stands for a character, on one line and on several. -/
def EscapeCode (code : List Char) (c : Char) : Prop :=
  ∀ rest, escape? (code ++ rest) = some (c, rest) ∧ continued? (code ++ rest) = none

theorem escapeCode_hexCapital {c : Char} (h : c.toNat < 256) :
    EscapeCode ['u', '0', '0', hexCapital (c.toNat / 16), hexCapital (c.toNat % 16)] c := by
  intro rest
  let hex := ['0', '0', hexCapital (c.toNat / 16), hexCapital (c.toNat % 16)]
  have hread : escape? ('u' :: hex ++ rest) =
      if (hex ++ rest).length < 4 then none else (scalarValue? hex).map (·, rest) := rfl
  have hlength : ¬ (hex ++ rest).length < 4 := by
    simp [hex]
  refine ⟨?_, rfl⟩
  change escape? ('u' :: hex ++ rest) = _
  rw [hread, if_neg hlength, scalarValue?_hexCapital h, Char.ofNat_toNat]
  rfl

/-- A character is written as itself, or as a backslash and a code that stands for it. -/
theorem escapedChar_cases (c : Char) :
    (escapedChar c = [c] ∧ isPlain c = true ∧ c ≠ '"' ∧ c ≠ '\\') ∨
      ∃ code, escapedChar c = '\\' :: code ∧ EscapeCode code c := by
  unfold escapedChar
  split
  iterate 7 exact Or.inr ⟨_, rfl, fun _ => ⟨rfl, rfl⟩⟩
  · next hnewline hreturn hfeed hquote hslash =>
      split
      · next hcontrol =>
          have hlow : c.toNat < 256 := by
            simp only [needsEscape, Bool.and_eq_true, Bool.or_eq_true, decide_eq_true_eq,
              beq_iff_eq] at hcontrol
            omega
          exact Or.inr ⟨_, rfl, escapeCode_hexCapital hlow⟩
      · next hcontrol =>
          exact Or.inl ⟨rfl, isPlain_of_needsEscape (by simpa using hcontrol) hnewline,
            hquote, hslash⟩

theorem escapedChar_ne_nil (c : Char) : escapedChar c ≠ [] := by
  obtain ⟨hself, -⟩ | ⟨code, hcode, -⟩ := escapedChar_cases c
  · simp [hself]
  · simp [hcode]

theorem length_le_escaped (text : List Char) :
    text.length ≤ (text.flatMap escapedChar).length := by
  induction text with
  | nil => exact Nat.le_refl 0
  | cons c text ih =>
      have hpos : 0 < (escapedChar c).length := List.length_pos_iff.mpr (escapedChar_ne_nil c)
      rw [List.flatMap_cons, List.length_append, List.length_cons]
      omega

/-! Strings on one line. -/

theorem basicBody_escaped (text rest : List Char) {fuel : Nat} (hfuel : text.length < fuel) :
    basicBody fuel (text.flatMap escapedChar ++ '"' :: rest) = some (text, rest) := by
  induction text generalizing fuel with
  | nil =>
      cases fuel with
      | zero => omega
      | succ fuel => rfl
  | cons c text ih =>
      cases fuel with
      | zero => omega
      | succ fuel =>
          have hrest := ih (Nat.lt_of_succ_lt_succ hfuel)
          rw [List.flatMap_cons, List.append_assoc]
          obtain ⟨hself, hplain, hquote, hslash⟩ | ⟨code, hcode, hescape⟩ := escapedChar_cases c
          · rw [hself, List.singleton_append, basicBody, if_neg hquote, if_neg hslash,
              if_pos hplain, hrest]
            rfl
          · rw [hcode, List.cons_append, basicBody, if_neg (by decide), if_pos rfl,
              (hescape _).1, Option.bind_some]
            simp only [hrest]
            rfl

/-- A character that a literal string on one line holds. -/
def StandsLiteral (c : Char) : Prop :=
  isPlain c = true ∧ c ≠ '\''

theorem literalBody_append {text : List Char} (htext : ∀ c ∈ text, StandsLiteral c)
    (rest : List Char) : literalBody (text ++ '\'' :: rest) = some (text, rest) := by
  have hinside : ∀ c ∈ text, (isPlain c && c != '\'') = true := by
    intro c hc
    obtain ⟨hplain, hquote⟩ := htext c hc
    simp [hplain, hquote]
  have hquote : (isPlain '\'' && '\'' != '\'') = false := by decide
  unfold literalBody
  simp only [List.takeWhile_append_of_pos hinside, List.dropWhile_append_of_pos hinside,
    List.takeWhile_cons, List.dropWhile_cons, hquote, Bool.false_eq_true, if_false,
    List.append_nil]

/-! Strings on several lines. -/

section Closing

variable {quote : Char} {rest : List Char}

/-- A string is closed at three quotes, and up to two more before them belong to it. -/
theorem closing?_replicate {count : Nat} (hcount : count ≤ 2) (hrest : rest.head? ≠ some quote) :
    closing? quote (List.replicate count quote ++ quote :: quote :: quote :: rest) =
      some (List.replicate count quote, rest) := by
  have hcut : List.replicate count quote ++ quote :: quote :: quote :: rest =
      List.replicate (count + 3) quote ++ rest := by
    rw [← List.replicate_append_replicate, List.append_assoc]
    rfl
  have hnone : rest.takeWhile (· == quote) = [] := by
    cases rest with
    | nil => rfl
    | cons c rest =>
        have hc : c ≠ quote := by simpa using hrest
        simp [hc]
  have hrun : ((List.replicate (count + 3) quote ++ rest).takeWhile (· == quote)).length =
      count + 3 := by
    rw [List.takeWhile_append_of_pos (by simp), hnone]
    simp
  have hinside : min (count + 3 - 3) 2 = count := by omega
  rw [hcut]
  simp only [closing?, hrun, hinside]
  rw [if_neg (by omega), List.drop_left' (by simp)]

theorem closing?_eq_none {cs : List Char} (h : (cs.takeWhile (· == quote)).length < 3) :
    closing? quote cs = none := by
  simp [closing?, h]

theorem closing?_of_ne {c : Char} (h : c ≠ quote) (cs : List Char) :
    closing? quote (c :: cs) = none := by
  apply closing?_eq_none
  simp [h]

/-- The quotes at the front of a written text, with those just before it, are at most two, or the
text has nothing but quotes. -/
def FewQuotes (quote : Char) (before : Nat) (text written : List Char) : Prop :=
  (written = text ∧ text = List.replicate text.length quote ∧ before + text.length ≤ 2) ∨
    ∀ after, before + ((written ++ after).takeWhile (· == quote)).length ≤ 2

/-- A string is closed where only quotes are left of it, and nowhere before. -/
theorem FewQuotes.closing? {before : Nat} {text written : List Char}
    (h : FewQuotes quote before text written) (hrest : rest.head? ≠ some quote) :
    closing? quote (written ++ quote :: quote :: quote :: rest) = some (text, rest) ∨
      closing? quote (written ++ quote :: quote :: quote :: rest) = none := by
  obtain ⟨rfl, hall, hcount⟩ | hrun := h
  · rw [hall]
    exact Or.inl (closing?_replicate (by omega) hrest)
  · have hfront := hrun (quote :: quote :: quote :: rest)
    exact Or.inr (closing?_eq_none (by omega))

theorem FewQuotes.nil {before : Nat} (h : before ≤ 2) : FewQuotes quote before [] [] :=
  Or.inl ⟨rfl, rfl, h⟩

theorem FewQuotes.cons {before : Nat} {text written : List Char}
    (h : FewQuotes quote (before + 1) text written) :
    FewQuotes quote before (quote :: text) (quote :: written) := by
  obtain ⟨rfl, hall, hcount⟩ | hrun := h
  · refine Or.inl ⟨rfl, congrArg (quote :: ·) hall, ?_⟩
    rw [List.length_cons]
    omega
  · refine Or.inr fun after => ?_
    have hfront := hrun after
    rw [List.cons_append, List.takeWhile_cons_of_pos (by simp), List.length_cons]
    omega

theorem FewQuotes.of_ne {before : Nat} (h : before ≤ 2) {c : Char} (hc : c ≠ quote)
    (text written : List Char) : FewQuotes quote before text (c :: written) := by
  refine Or.inr fun after => ?_
  rw [List.cons_append, List.takeWhile_cons_of_neg (by simp [hc])]
  exact h

end Closing

/-- What is written for a character on several lines: a quote that is not the third of a run and a
newline are themselves, and so is every other character that has no escape. -/
theorem escapedLines_cases (quotes : Nat) (c : Char) (text : List Char) :
    (c = '"' ∧ quotes < 2 ∧
      escapedLines quotes (c :: text) = '"' :: escapedLines (quotes + 1) text) ∨
    (c = '\n' ∧ escapedLines quotes (c :: text) = '\n' :: escapedLines 0 text) ∨
    (isPlain c = true ∧ c ≠ '"' ∧ c ≠ '\\' ∧
      escapedLines quotes (c :: text) = c :: escapedLines 0 text) ∨
    ∃ code, EscapeCode code c ∧
      escapedLines quotes (c :: text) = '\\' :: code ++ escapedLines 0 text := by
  by_cases hquote : c = '"'
  · subst hquote
    rw [escapedLines]
    split
    · next hfew => exact Or.inl ⟨rfl, hfew, rfl⟩
    · exact Or.inr (Or.inr (Or.inr ⟨['"'], fun _ => ⟨rfl, rfl⟩, rfl⟩))
  by_cases hbreak : c = '\n'
  · subst hbreak
    exact Or.inr (Or.inl ⟨rfl, rfl⟩)
  have hother : escapedLines quotes (c :: text) = escapedChar c ++ escapedLines 0 text := by
    rw [escapedLines]
    · exact hquote
    · exact hbreak
  rw [hother]
  obtain ⟨hself, hplain, -, hslash⟩ | ⟨code, hcode, hescape⟩ := escapedChar_cases c
  · exact Or.inr (Or.inr (Or.inl ⟨hplain, hquote, hslash, by rw [hself]; rfl⟩))
  · exact Or.inr (Or.inr (Or.inr ⟨code, hescape, by rw [hcode]⟩))

theorem fewQuotes_escapedLines {quotes : Nat} (hquotes : quotes ≤ 2) (text : List Char) :
    FewQuotes '"' quotes text (escapedLines quotes text) := by
  induction text generalizing quotes with
  | nil => exact .nil hquotes
  | cons c text ih =>
      obtain ⟨rfl, hfew, hstep⟩ | ⟨rfl, hstep⟩ | ⟨-, hquote, -, hstep⟩ | ⟨code, -, hstep⟩ :=
        escapedLines_cases quotes c text <;> rw [hstep]
      · exact (ih hfew).cons
      · exact .of_ne hquotes (by decide) _ _
      · exact .of_ne hquotes hquote _ _
      · exact .of_ne hquotes (by decide) _ _

theorem length_le_escapedLines (quotes : Nat) (text : List Char) :
    text.length ≤ (escapedLines quotes text).length := by
  induction text generalizing quotes with
  | nil => exact Nat.le_refl 0
  | cons c text ih =>
      have hsame := ih (quotes + 1)
      have hfresh := ih 0
      obtain ⟨-, -, hstep⟩ | ⟨-, hstep⟩ | ⟨-, -, -, hstep⟩ | ⟨code, -, hstep⟩ :=
        escapedLines_cases quotes c text <;>
      · rw [hstep]
        simp only [List.length_cons, List.length_append]
        omega

theorem head?_escapedLines {text : List Char} (hbreak : '\n' ∉ text) :
    ∀ c ∈ (escapedLines 0 text).head?, isPlain c = true := by
  cases text with
  | nil => simp [escapedLines]
  | cons c text =>
      obtain ⟨rfl, -, hstep⟩ | ⟨rfl, hstep⟩ | ⟨hplain, -, -, hstep⟩ | ⟨code, -, hstep⟩ :=
        escapedLines_cases 0 c text
      · simp [hstep, isPlain]
      · exact absurd List.mem_cons_self hbreak
      · simp [hstep, hplain]
      · simp [hstep, isPlain]

section Runs

variable {quote : Char}

theorem longestRun_mono {here more : Nat} (h : here ≤ more) (text : List Char) :
    longestRun quote here text ≤ longestRun quote more text := by
  induction text generalizing here more with
  | nil => exact h
  | cons c text ih =>
      rw [longestRun, longestRun]
      split
      · exact ih (Nat.add_le_add_right h 1)
      · omega

theorem longestRun_tail (c : Char) (text : List Char) :
    longestRun quote 0 text ≤ longestRun quote 0 (c :: text) := by
  rw [longestRun]
  split
  · exact longestRun_mono (Nat.zero_le _) text
  · exact Nat.le_max_right _ _

theorem le_longestRun (here : Nat) (text : List Char) : here ≤ longestRun quote here text := by
  induction text generalizing here with
  | nil => exact Nat.le_refl here
  | cons c text ih =>
      rw [longestRun]
      split
      · exact Nat.le_of_succ_le (ih (here + 1))
      · exact Nat.le_max_left _ _

theorem notMem_of_longestRun {here : Nat} {text : List Char}
    (h : longestRun quote here text = 0) : quote ∉ text := by
  induction text generalizing here with
  | nil => exact List.not_mem_nil
  | cons c text ih =>
      rw [longestRun] at h
      split at h
      · have hhere : here + 1 ≤ longestRun quote (here + 1) text := le_longestRun _ text
        omega
      · next hquote =>
          have hnone : longestRun quote 0 text = 0 := by omega
          have htext : quote ∉ text := ih hnone
          simp [Ne.symm hquote, htext]

theorem fewQuotes_of_longestRun {here : Nat} {text : List Char}
    (h : longestRun quote here text ≤ 2) : FewQuotes quote here text text := by
  induction text generalizing here with
  | nil => exact .nil h
  | cons c text ih =>
      rw [longestRun] at h
      split at h
      · next hquote =>
          subst hquote
          exact (ih h).cons
      · next hquote => exact .of_ne (by omega) hquote _ _

end Runs

theorem lineBreak?_plain {c : Char} (h : isPlain c = true) (cs : List Char) :
    lineBreak? (c :: cs) = none := by
  obtain ⟨hnewline, hreturn⟩ := ne_breaks_of_isPlain h
  unfold lineBreak?
  split
  · next heq => exact absurd (List.cons_eq_cons.mp heq).1 hnewline
  · next heq => exact absurd (List.cons_eq_cons.mp heq).1 hreturn
  · rfl

section MultilineBasic

variable {fuel : Nat} {cs rest : List Char}

theorem multilineBasicBody_closing {ending : List Char × List Char}
    (h : closing? '"' cs = some ending) : multilineBasicBody (fuel + 1) cs = some ending := by
  simp only [multilineBasicBody, h]

theorem multilineBasicBody_newline :
    multilineBasicBody (fuel + 1) ('\n' :: cs) = before '\n' (multilineBasicBody fuel cs) := by
  have hopen : closing? '"' ('\n' :: cs) = none := closing?_of_ne (by decide) cs
  simp only [multilineBasicBody, hopen, lineBreak?]

theorem multilineBasicBody_plain {c : Char} (hopen : closing? '"' (c :: cs) = none)
    (hplain : isPlain c = true) (hslash : c ≠ '\\') :
    multilineBasicBody (fuel + 1) (c :: cs) = before c (multilineBasicBody fuel cs) := by
  simp only [multilineBasicBody, hopen, lineBreak?_plain hplain, if_neg hslash, if_pos hplain]

theorem multilineBasicBody_escape {code : List Char} {c : Char} (hcode : EscapeCode code c) :
    multilineBasicBody (fuel + 1) ('\\' :: code ++ cs) =
      before c (multilineBasicBody fuel cs) := by
  have hopen : closing? '"' ('\\' :: (code ++ cs)) = none := closing?_of_ne (by decide) _
  have hbreak : lineBreak? ('\\' :: (code ++ cs)) = none := rfl
  obtain ⟨hescape, hcontinued⟩ := hcode cs
  simp only [List.cons_append, multilineBasicBody, hopen, hbreak, if_true, hcontinued, hescape,
    Option.bind_some]

theorem multilineBasicBody_escaped (text : List Char) {quotes : Nat} (hquotes : quotes ≤ 2)
    (hrest : rest.head? ≠ some '"') (hfuel : text.length ≤ fuel) :
    multilineBasicBody (fuel + 1) (escapedLines quotes text ++ '"' :: '"' :: '"' :: rest) =
      some (text, rest) := by
  induction text generalizing quotes fuel with
  | nil => exact multilineBasicBody_closing (closing?_replicate (Nat.zero_le 2) hrest)
  | cons c text ih =>
      obtain hclosed | hopen := (fewQuotes_escapedLines hquotes (c :: text)).closing? hrest
      · exact multilineBasicBody_closing hclosed
      obtain ⟨less, rfl⟩ : ∃ less, fuel = less + 1 :=
        Nat.exists_eq_add_one.mpr (Nat.lt_of_lt_of_le (Nat.zero_lt_succ _) hfuel)
      have hfuel' : text.length ≤ less := Nat.le_of_succ_le_succ hfuel
      obtain ⟨rfl, hfew, hstep⟩ | ⟨rfl, hstep⟩ | ⟨hplain, -, hslash, hstep⟩ |
        ⟨code, hescape, hstep⟩ := escapedLines_cases quotes c text
      · rw [hstep, List.cons_append] at hopen ⊢
        rw [multilineBasicBody_plain hopen rfl (by decide), ih hfew hfuel']
        rfl
      · rw [hstep, List.cons_append, multilineBasicBody_newline, ih (Nat.zero_le 2) hfuel']
        rfl
      · rw [hstep, List.cons_append] at hopen ⊢
        rw [multilineBasicBody_plain hopen hplain hslash, ih (Nat.zero_le 2) hfuel']
        rfl
      · rw [hstep, List.append_assoc, multilineBasicBody_escape hescape,
          ih (Nat.zero_le 2) hfuel']
        rfl

end MultilineBasic

section MultilineLiteral

variable {fuel : Nat} {cs rest : List Char}

/-- A character that a literal string on several lines holds. -/
def StandsMultiline (c : Char) : Prop :=
  isPlain c = true ∨ c = '\n'

theorem multilineLiteralBody_closing {ending : List Char × List Char}
    (h : closing? '\'' cs = some ending) : multilineLiteralBody (fuel + 1) cs = some ending := by
  simp only [multilineLiteralBody, h]

theorem multilineLiteralBody_step {c : Char} (hopen : closing? '\'' (c :: cs) = none)
    (hc : StandsMultiline c) :
    multilineLiteralBody (fuel + 1) (c :: cs) = before c (multilineLiteralBody fuel cs) := by
  obtain hplain | rfl := hc
  · simp only [multilineLiteralBody, hopen, lineBreak?_plain hplain, if_pos hplain]
  · simp only [multilineLiteralBody, hopen, lineBreak?]

theorem multilineLiteralBody_append {text : List Char} (htext : ∀ c ∈ text, StandsMultiline c)
    (hruns : longestRun '\'' 0 text < 3) (hrest : rest.head? ≠ some '\'')
    (hfuel : text.length ≤ fuel) :
    multilineLiteralBody (fuel + 1) (text ++ '\'' :: '\'' :: '\'' :: rest) =
      some (text, rest) := by
  induction text generalizing fuel with
  | nil => exact multilineLiteralBody_closing (closing?_replicate (Nat.zero_le 2) hrest)
  | cons c text ih =>
      obtain ⟨hc, htext⟩ := List.forall_mem_cons.mp htext
      obtain hclosed | hopen :=
        (fewQuotes_of_longestRun (Nat.le_of_lt_succ hruns)).closing? hrest
      · exact multilineLiteralBody_closing hclosed
      obtain ⟨less, rfl⟩ : ∃ less, fuel = less + 1 :=
        Nat.exists_eq_add_one.mpr (Nat.lt_of_lt_of_le (Nat.zero_lt_succ _) hfuel)
      have hfuel' : text.length ≤ less := Nat.le_of_succ_le_succ hfuel
      have hruns' : longestRun '\'' 0 text < 3 :=
        Nat.lt_of_le_of_lt (longestRun_tail c text) hruns
      rw [List.cons_append] at hopen ⊢
      rw [multilineLiteralBody_step hopen hc, ih htext hruns' hfuel']
      rfl

end MultilineLiteral

/-! Whole strings, with what follows them in the document. -/

section Strings

variable {rest : List Char}

/-- A document goes on after a string without a further quote. -/
def EndsString (rest : List Char) : Prop :=
  rest.head? ≠ some '"' ∧ rest.head? ≠ some '\''

theorem ne_two_quotes {quote : Char} {inside : List Char} (hinside : inside.head? ≠ some quote)
    (hrest : rest.head? ≠ some quote) (after : List Char) :
    inside ++ quote :: rest ≠ quote :: quote :: after := by
  intro h
  cases inside with
  | nil =>
      obtain ⟨-, rfl⟩ := List.cons_eq_cons.mp h
      exact hrest rfl
  | cons c inside =>
      obtain ⟨rfl, -⟩ := List.cons_eq_cons.mp h
      exact hinside rfl

theorem head?_escaped (text : List Char) : (text.flatMap escapedChar).head? ≠ some '"' := by
  cases text with
  | nil => simp
  | cons c text =>
      obtain ⟨hself, -, hquote, -⟩ | ⟨code, hcode, -⟩ := escapedChar_cases c
      · simp [hself, hquote]
      · simp [hcode]

/-- A basic string on one line holds every text. -/
theorem string?_basic (text : List Char) (hrest : EndsString rest) :
    string? (Quotation.basic.write text ++ rest) = some (String.ofList text, rest) := by
  have hbody : basicBody (text.flatMap escapedChar ++ '"' :: rest).length
      (text.flatMap escapedChar ++ '"' :: rest) = some (text, rest) := by
    apply basicBody_escaped
    have hlength := length_le_escaped text
    rw [List.length_append, List.length_cons]
    omega
  have hwritten : Quotation.basic.write text ++ rest =
      '"' :: (text.flatMap escapedChar ++ '"' :: rest) := by
    simp [Quotation.write]
  rw [hwritten, string?]
  · simp only [lineString?, hbody, Option.map_some]
  · intro after heq
    exact ne_two_quotes (head?_escaped text) hrest.1 after (List.cons_eq_cons.mp heq).2
  · intro after heq
    exact absurd (List.cons_eq_cons.mp heq).1 (by decide)

theorem string?_literal {text : List Char} (htext : ∀ c ∈ text, StandsLiteral c)
    (hrest : EndsString rest) :
    string? (Quotation.literal.write text ++ rest) = some (String.ofList text, rest) := by
  have hwritten : Quotation.literal.write text ++ rest =
      '\'' :: (text ++ '\'' :: rest) := by
    simp [Quotation.write]
  have hhead : text.head? ≠ some '\'' := by
    intro h
    exact (htext _ (List.mem_of_head? h)).2 rfl
  rw [hwritten, string?]
  · simp only [lineString?, literalBody_append htext, Option.map_some]
  · intro after heq
    exact absurd (List.cons_eq_cons.mp heq).1 (by decide)
  · intro after heq
    exact ne_two_quotes hhead hrest.2 after (List.cons_eq_cons.mp heq).2

/-- The newline that a text with newlines starts after is no part of it. -/
theorem skipFirstBreak_onLines {quote : Char} {text inside : List Char}
    (hquote : isPlain quote = true)
    (hinside : '\n' ∉ text → ∀ c ∈ inside.head?, isPlain c = true) :
    skipFirstBreak ((if text.contains '\n' then ['\n'] else []) ++
      (inside ++ quote :: quote :: quote :: rest)) =
      inside ++ quote :: quote :: quote :: rest := by
  by_cases hbreak : '\n' ∈ text
  · rw [if_pos (List.contains_iff_mem.mpr hbreak)]
    rfl
  · rw [if_neg (by simpa using hbreak), List.nil_append, skipFirstBreak]
    cases inside with
    | nil => rw [List.nil_append, lineBreak?_plain hquote, Option.getD_none]
    | cons c inside =>
        have hplain : isPlain c = true := hinside hbreak c (by simp)
        rw [List.cons_append, lineBreak?_plain hplain, Option.getD_none]

theorem onLines_append (quote : Char) (text inside : List Char) :
    onLines [quote, quote, quote] text inside ++ rest =
      quote :: quote :: quote :: ((if text.contains '\n' then ['\n'] else []) ++
        (inside ++ quote :: quote :: quote :: rest)) := by
  simp [onLines]

/-- The characters of a text between marks are enough fuel to read it. -/
theorem exists_fuel {text inside : List Char} (h : text.length ≤ inside.length)
    (first : List Char) (quote : Char) (rest : List Char) :
    ∃ fuel, (first ++ (inside ++ quote :: quote :: quote :: rest)).length = fuel + 1 ∧
      text.length ≤ fuel := by
  refine ⟨first.length + inside.length + rest.length + 2, ?_, by omega⟩
  simp only [List.length_append, List.length_cons]
  omega

/-- A basic string on several lines holds every text. -/
theorem string?_multilineBasic (text : List Char) (hrest : EndsString rest) :
    string? (Quotation.multilineBasic.write text ++ rest) = some (String.ofList text, rest) := by
  obtain ⟨fuel, hlength, hfuel⟩ := exists_fuel (length_le_escapedLines 0 text)
    (if text.contains '\n' then ['\n'] else []) '"' rest
  rw [Quotation.write, onLines_append, string?, hlength,
    skipFirstBreak_onLines rfl fun hbreak => head?_escapedLines hbreak,
    multilineBasicBody_escaped text (Nat.zero_le 2) hrest.1 hfuel]
  rfl

theorem string?_multilineLiteral {text : List Char} (htext : ∀ c ∈ text, StandsMultiline c)
    (hruns : longestRun '\'' 0 text < 3) (hrest : EndsString rest) :
    string? (Quotation.multilineLiteral.write text ++ rest) =
      some (String.ofList text, rest) := by
  obtain ⟨fuel, hlength, hfuel⟩ := exists_fuel (Nat.le_refl text.length)
    (if text.contains '\n' then ['\n'] else []) '\'' rest
  have hfirst (hbreak : '\n' ∉ text) : ∀ c ∈ text.head?, isPlain c = true := by
    intro c hc
    have hmem : c ∈ text := List.mem_of_head? hc
    obtain hplain | rfl := htext c hmem
    · exact hplain
    · exact absurd hmem hbreak
  rw [Quotation.write, onLines_append, string?, hlength, skipFirstBreak_onLines rfl hfirst,
    multilineLiteralBody_append htext hruns hrest.2 hfuel]
  rfl

theorem standsMultiline_of_needsEscape {text : List Char}
    (h : (!text.any needsEscape) = true) : ∀ c ∈ text, StandsMultiline c := by
  intro c hc
  by_cases hbreak : c = '\n'
  · exact Or.inr hbreak
  · have hescape : needsEscape c = false := by
      rw [Bool.not_eq_true', List.any_eq_false] at h
      simpa using h c hc
    exact Or.inl (isPlain_of_needsEscape hescape hbreak)

theorem standsLiteral_of_needsEscape {text : List Char} (hplain : (!text.any needsEscape) = true)
    (hline : (!text.contains '\n') = true) (hruns : longestRun '\'' 0 text = 0) :
    ∀ c ∈ text, StandsLiteral c := by
  have hquote : '\'' ∉ text := notMem_of_longestRun hruns
  have hbreak : '\n' ∉ text := by simpa using hline
  intro c hc
  obtain hstands | rfl := standsMultiline_of_needsEscape hplain c hc
  · refine ⟨hstands, ?_⟩
    rintro rfl
    exact hquote hc
  · exact absurd hc hbreak

/-- Whatever form is chosen for a text holds it. -/
theorem string?_ofText (text : List Char) (hrest : EndsString rest) :
    string? ((Quotation.ofText text).write text ++ rest) = some (String.ofList text, rest) := by
  unfold Quotation.ofText
  dsimp only
  split
  · exact string?_basic text hrest
  split
  · next h =>
      simp only [Bool.and_eq_true, decide_eq_true_eq] at h
      exact string?_literal (standsLiteral_of_needsEscape h.1.1 h.1.2 h.2) hrest
  split
  · exact string?_multilineBasic text hrest
  split
  · next h =>
      simp only [Bool.and_eq_true, decide_eq_true_eq] at h
      exact string?_multilineLiteral (standsMultiline_of_needsEscape h.1) h.2 hrest
  split
  · exact string?_basic text hrest
  · exact string?_multilineBasic text hrest

/-- A quoted text is read back, whatever characters it has. -/
theorem string?_quoted (text : String) (hrest : EndsString rest) :
    string? ((quoted text).toList ++ rest) = some (text, rest) := by
  rw [quoted, String.toList_ofList, string?_ofText text.toList hrest, String.ofList_toList]

end Strings

end SettingsLang.Toml
