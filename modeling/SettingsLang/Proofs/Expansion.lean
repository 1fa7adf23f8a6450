import Mathlib.Data.List.Infix
import Mathlib.Data.List.TakeWhile
import SettingsLang.Environment
import SettingsLang.Proofs.Rendering

/-!
What texts that refer to variables stand for. A text is read once from the left, as parts that are
told here by what they look like and by what may follow them. It is expanded only if every part has
a value, and is then the values one after the other: what a value contains is not read. A home
directory is put in for a `~` that the text itself begins with.
-/

namespace SettingsLang

/-- A text has a mark nowhere, or it has a first one. -/
theorem exists_first_infix {α : Type} {mark : List α} (hmark : mark ≠ []) (text : List α) :
    ¬ mark <:+: text ∨ ∃ before after, text = before ++ mark ++ after ∧ ¬ mark <:+: before := by
  have hempty : ¬ mark <:+: [] := fun h => hmark (List.infix_nil.mp h)
  induction text with
  | nil => exact Or.inl hempty
  | cons entry rest ih =>
      by_cases hhere : mark <+: entry :: rest
      · obtain ⟨after, hafter⟩ := hhere
        exact Or.inr ⟨[], after, by simp [hafter], hempty⟩
      · rcases ih with hnone | ⟨before, after, rfl, hbefore⟩
        · exact Or.inl fun h => (List.infix_cons_iff.mp h).elim hhere hnone
        · refine Or.inr ⟨entry :: before, after, rfl, fun h => ?_⟩
          rcases List.infix_cons_iff.mp h with hprefix | hinfix
          · apply hhere
            rw [List.append_assoc, ← List.cons_append]
            exact hprefix.trans (List.prefix_append _ _)
          · exact hbefore hinfix

theorem mapM_eq_none {α β : Type} {f : α → Option β} {list : List α}
    (h : ∃ entry ∈ list, f entry = none) : list.mapM f = none := by
  obtain ⟨entry, hmem, hnone⟩ := h
  induction list with
  | nil => cases hmem
  | cons first rest ih =>
      rw [List.mapM_cons]
      rcases List.mem_cons.mp hmem with rfl | hrest
      · rw [hnone]
        rfl
      · rw [ih hrest]
        cases f first <;> rfl

theorem mapM_eq_filterMap {α β : Type} {f : α → Option β} {list : List α}
    (h : ∀ entry ∈ list, f entry ≠ none) : list.mapM f = some (list.filterMap f) := by
  induction list with
  | nil => rfl
  | cons first rest ih =>
      obtain ⟨hfirst, hrest⟩ := List.forall_mem_cons.mp h
      obtain ⟨value, hvalue⟩ := Option.ne_none_iff_exists'.mp hfirst
      rw [List.mapM_cons, List.filterMap_cons_some hvalue, hvalue, ih hrest]
      rfl

theorem join_singletons (text : List Char) :
    String.join (text.map String.singleton) = String.ofList text := by
  induction text with
  | nil => rfl
  | cons char rest ih =>
      rw [List.map_cons, String.join_cons, ih, String.singleton_eq_ofList, ← String.ofList_append]
      rfl

namespace Environment

/-- What stands between the name of a variable and its default. -/
def defaultMark : List Char :=
  [':', '-']

/-- A part of a text that may refer to variables. -/
inductive Part where
  | plain (char : Char)
  | doubledDollar
  | named (name : List Char)
  | braced (name : List Char)
  | defaulted (name default : List Char)

/-- After a dollar sign this makes an escape or a reference of it. -/
def Continues (rest : List Char) : Prop :=
  (∃ next ∈ rest.head?, next = '$' ∨ Text.isWordChar next = true) ∨
    ∃ inside after, rest = '\x7b' :: inside ++ '\x7d' :: after

namespace Part

/-- How a part is written. -/
def source : Part → List Char
  | .plain char => [char]
  | .doubledDollar => ['$', '$']
  | .named name => '$' :: name
  | .braced name => '$' :: '\x7b' :: name ++ ['\x7d']
  | .defaulted name default => '$' :: '\x7b' :: (name ++ defaultMark ++ default) ++ ['\x7d']

/-- A part may stand before a rest of the text. A name without braces goes as far as there are
letters, digits and underscores, and one with braces up to the first brace that closes. There the
first mark of a default counts, unless nothing is before it. -/
def Fits (rest : List Char) : Part → Prop
  | .plain char => char = '$' → ¬ Continues rest
  | .doubledDollar => True
  | .named name => name ≠ [] ∧ (∀ char ∈ name, Text.isWordChar char = true) ∧
    ∀ next ∈ rest.head?, Text.isWordChar next = false
  | .braced name => '\x7d' ∉ name ∧ (defaultMark <:+: name → defaultMark <+: name)
  | .defaulted name default => '\x7d' ∉ name ++ default ∧ name ≠ [] ∧ ¬ defaultMark <:+: name

/-- What a part stands for; a variable without a default may be unset. -/
def value? (environment : Environment) : Part → Option String
  | .plain char => some (String.singleton char)
  | .doubledDollar => some "$"
  | .named name | .braced name => environment.value? (String.ofList name)
  | .defaulted name default =>
    some ((environment.value? (String.ofList name)).getD (String.ofList default))

/-- The piece that is made of a part. -/
def piece : Part → Piece
  | .plain char => .literal char
  | .doubledDollar => .literal '$'
  | .named name | .braced name => .variable (String.ofList name) none
  | .defaulted name default => .variable (String.ofList name) (some (String.ofList default))

theorem expand?_piece (environment : Environment) (part : Part) :
    part.piece.expand? environment = part.value? environment := by
  cases part with
  | plain char => rfl
  | doubledDollar => rfl
  | named name | braced name | defaulted name default =>
      simp only [piece, Piece.expand?, value?]
      cases environment.value? (String.ofList name) <;> rfl

end Part

/-- A text is read as these parts. -/
inductive ReadsAs : List Char → List Part → Prop where
  | nil : ReadsAs [] []
  | cons {part : Part} {rest : List Char} {parts : List Part} (hfits : part.Fits rest)
      (hrest : ReadsAs rest parts) : ReadsAs (part.source ++ rest) (part :: parts)

theorem isWordChar_dollar : Text.isWordChar '$' = false := by
  rw [Text.isWordChar, Text.isAlphanumeric, ← Array.any_toList]
  decide +kernel

theorem isWordChar_brace : Text.isWordChar '\x7b' = false := by
  rw [Text.isWordChar, Text.isAlphanumeric, ← Array.any_toList]
  decide +kernel

namespace Piece

theorem cutAtDefault_append {name : List Char} (hname : ¬ defaultMark <:+: name)
    {rest : List Char} (hrest : ∀ next ∈ rest.head?, next ≠ '-') :
    cutAtDefault (name ++ rest) = (name ++ (cutAtDefault rest).1, (cutAtDefault rest).2) := by
  induction name with
  | nil => rfl
  | cons char others ih =>
      obtain ⟨hhere, hlater⟩ := not_or.mp (mt List.infix_cons_iff.mpr hname)
      have hearly : ∀ after, char = ':' → others ++ rest = '-' :: after → False := by
        rintro after rfl hdash
        cases others with
        | nil =>
            rw [List.nil_append] at hdash
            exact hrest '-' (by rw [hdash]; rfl) rfl
        | cons next more =>
            obtain ⟨rfl, -⟩ := List.cons.inj hdash
            exact hhere (List.prefix_append defaultMark more)
      rw [List.cons_append, cutAtDefault.eq_3 _ _ hearly, ih hlater]
      rfl

theorem ofBraced_braced {name : List Char} (h : defaultMark <:+: name → defaultMark <+: name) :
    ofBraced name = .variable (String.ofList name) none := by
  by_cases hmark : defaultMark <:+: name
  · obtain ⟨rest, rfl⟩ := h hmark
    rfl
  · have hend : ∀ next ∈ ([] : List Char).head?, next ≠ '-' := by
      simp
    have hcut := cutAtDefault_append hmark hend
    rw [List.append_nil] at hcut
    rw [ofBraced, hcut]
    cases name <;> rfl

theorem ofBraced_defaulted {name default : List Char} (hne : name ≠ [])
    (hname : ¬ defaultMark <:+: name) :
    ofBraced (name ++ defaultMark ++ default) =
      .variable (String.ofList name) (some (String.ofList default)) := by
  have hnext : ∀ next ∈ (defaultMark ++ default).head?, next ≠ '-' := by
    simp [defaultMark]
  have hcut := cutAtDefault_append hname hnext
  have hmark : cutAtDefault (defaultMark ++ default) = ([], some default) := rfl
  rw [hmark, List.append_nil] at hcut
  rw [ofBraced, List.append_assoc, hcut]
  cases name with
  | nil => exact absurd rfl hne
  | cons char others => rfl

/-- What is between braces is read up to the first one that closes. -/
theorem ofChars_braces {inside rest : List Char} (h : '\x7d' ∉ inside) :
    ofChars ('$' :: '\x7b' :: (inside ++ '\x7d' :: rest)) = ofBraced inside :: ofChars rest := by
  have hkept : ∀ char ∈ inside, (char != '\x7d') = true :=
    fun char hmem => bne_iff_ne.mpr fun heq => h (heq ▸ hmem)
  have hstop : ∀ char ∈ ('\x7d' :: rest).head?, (char != '\x7d') = false := by
    simp
  obtain ⟨htaken, hdropped⟩ := takeWhile_of_stop hkept hstop
  rw [ofChars.eq_3]
  split
  · rename_i hnone
    rw [hdropped] at hnone
    cases hnone
  · rename_i brace after hafter
    rw [hdropped] at hafter
    obtain ⟨rfl, rfl⟩ := List.cons.inj hafter
    rw [htaken]

/-- A dollar sign before anything else than an escape or a reference stands for itself. -/
theorem ofChars_plainDollar {rest : List Char} (h : ¬ Continues rest) :
    ofChars ('$' :: rest) = .literal '$' :: ofChars rest := by
  obtain ⟨hnext, hbraces⟩ := not_or.mp h
  cases rest with
  | nil => rw [ofChars.eq_4 _ (by simp) (by simp)]; rfl
  | cons next others =>
      obtain ⟨hdollar, hword⟩ := not_or.mp fun hor => hnext ⟨next, rfl, hor⟩
      by_cases hbrace : next = '\x7b'
      · subst hbrace
        have hopen : ofChars ('\x7b' :: others) = .literal '\x7b' :: ofChars others :=
          ofChars.eq_5 _ _ (by simp) (by simp) (by decide)
        have hnone : others.dropWhile (· != '\x7d') = [] := by
          rw [List.dropWhile_eq_nil_iff]
          intro char hmem
          rw [bne_iff_ne]
          rintro rfl
          obtain ⟨inside, after, rfl⟩ := List.append_of_mem hmem
          exact hbraces ⟨inside, after, rfl⟩
        rw [ofChars.eq_3, hopen]
        split
        · rfl
        · rename_i hsome
          rw [hnone] at hsome
          cases hsome
      · rw [ofChars.eq_4 _ (by simp [hdollar]) (by simp [hbrace])]
        simp [hword]

/-- Reading a text and reading its parts make the same pieces. -/
theorem ofChars_source {part : Part} {rest : List Char} (hfits : part.Fits rest) :
    ofChars (part.source ++ rest) = part.piece :: ofChars rest := by
  cases part with
  | plain char =>
      by_cases hchar : char = '$'
      · subst hchar
        exact ofChars_plainDollar (hfits rfl)
      · exact ofChars.eq_5 _ _ (fun _ h => absurd h hchar) (fun _ h => absurd h hchar) hchar
  | doubledDollar => exact ofChars.eq_2 rest
  | named name =>
      obtain ⟨hne, hword, hstop⟩ := hfits
      obtain ⟨htaken, hdropped⟩ := takeWhile_of_stop hword hstop
      have hfirst (sign : Char) (hsign : Text.isWordChar sign = false) (others : List Char) :
          name ++ rest = sign :: others → False := by
        intro h
        cases name with
        | nil => exact hne rfl
        | cons char more =>
            obtain ⟨rfl, -⟩ := List.cons.inj h
            rw [hword char List.mem_cons_self] at hsign
            cases hsign
      rw [Part.source, List.cons_append,
        ofChars.eq_4 _ (hfirst '$' isWordChar_dollar) (hfirst '\x7b' isWordChar_brace), htaken,
        hdropped, if_neg (by simpa using hne)]
      rfl
  | braced name =>
      have htext : (Part.braced name).source ++ rest =
          '$' :: '\x7b' :: (name ++ '\x7d' :: rest) := by
        simp [Part.source]
      rw [htext, ofChars_braces hfits.1, ofBraced_braced hfits.2]
      rfl
  | defaulted name default =>
      obtain ⟨hbrace, hne, hmark⟩ := hfits
      have hinside : '\x7d' ∉ name ++ defaultMark ++ default := by
        simpa [defaultMark] using hbrace
      have htext : (Part.defaulted name default).source ++ rest =
          '$' :: '\x7b' :: (name ++ defaultMark ++ default ++ '\x7d' :: rest) := by
        simp [Part.source]
      rw [htext, ofChars_braces hinside, ofBraced_defaulted hne hmark]
      rfl

end Piece

theorem ReadsAs.ofChars_eq {text : List Char} {parts : List Part} (h : ReadsAs text parts) :
    Piece.ofChars text = parts.map Part.piece := by
  induction h with
  | nil => rw [Piece.ofChars.eq_1, List.map_nil]
  | cons hfits hrest ih => rw [Piece.ofChars_source hfits, ih, List.map_cons]

/-- At a dollar sign that is not just a character there is an escape or a reference. -/
theorem exists_reference {text : List Char} (h : Continues text) :
    ∃ (part : Part) (rest : List Char), part.Fits rest ∧ part.source ++ rest = '$' :: text := by
  rcases h with ⟨next, hnext, rfl | hword⟩ | ⟨inside, after, rfl⟩
  · obtain ⟨rest, rfl⟩ := List.head?_eq_some_iff.mp hnext
    exact ⟨.doubledDollar, rest, trivial, rfl⟩
  · refine ⟨.named (text.takeWhile Text.isWordChar), text.dropWhile Text.isWordChar,
      ⟨?_, ?_, ?_⟩, ?_⟩
    · obtain ⟨rest, rfl⟩ := List.head?_eq_some_iff.mp hnext
      rw [List.takeWhile_cons_of_pos hword]
      exact List.cons_ne_nil _ _
    · exact fun char => List.mem_takeWhile_imp
    · intro stop hstop
      have hnot := List.head?_dropWhile_not Text.isWordChar text
      rw [hstop] at hnot
      simpa using hnot
    · rw [Part.source, List.cons_append, List.takeWhile_append_dropWhile]
  · -- the first brace that closes ends what is between braces
    obtain ⟨name, rest, hsplit, hname⟩ := List.eq_append_cons_of_mem
      (List.mem_append_right inside (List.mem_cons_self : '\x7d' ∈ '\x7d' :: after))
    rw [List.cons_append, hsplit]
    rcases exists_first_infix (List.cons_ne_nil ':' ['-']) name with
      hnone | ⟨before, default, rfl, hbefore⟩
    · exact ⟨.braced name, rest, ⟨hname, fun hmark => absurd hmark hnone⟩, by simp [Part.source]⟩
    · by_cases hempty : before = []
      · subst hempty
        refine ⟨.braced (defaultMark ++ default), rest, ⟨hname, fun _ => ?_⟩, ?_⟩
        · exact List.prefix_append _ _
        · simp [Part.source, defaultMark]
      · refine ⟨.defaulted before default, rest, ⟨?_, hempty, hbefore⟩, ?_⟩
        · simpa using hname
        · simp [Part.source, defaultMark]

theorem exists_part (char : Char) (text : List Char) :
    ∃ (part : Part) (rest : List Char), part.Fits rest ∧ part.source ++ rest = char :: text := by
  by_cases h : char = '$' ∧ Continues text
  · obtain ⟨rfl, hcontinues⟩ := h
    exact exists_reference hcontinues
  · exact ⟨.plain char, text, fun hchar hcontinues => h ⟨hchar, hcontinues⟩, rfl⟩

theorem source_named_ne {name rest others : List Char} (h : (Part.named name).Fits rest) :
    (Part.named name).source ++ rest ≠ '$' :: '\x7b' :: others := by
  obtain ⟨hne, hword, -⟩ := h
  intro heq
  cases name with
  | nil => exact hne rfl
  | cons char more =>
      obtain ⟨rfl, -⟩ := List.cons.inj (List.cons.inj heq).2
      have hbrace := hword _ List.mem_cons_self
      rw [isWordChar_brace] at hbrace
      cases hbrace

/-- At the start of a text only one part fits. -/
theorem part_unique {first second : Part} {rest others : List Char} (hfirst : first.Fits rest)
    (hsecond : second.Fits others) (h : first.source ++ rest = second.source ++ others) :
    first = second := by
  have hpieces := congrArg Piece.ofChars h
  rw [Piece.ofChars_source hfirst, Piece.ofChars_source hsecond] at hpieces
  have hpiece := (List.cons.inj hpieces).1
  cases first <;> cases second <;> simp only [Part.piece, reduceCtorEq, Piece.literal.injEq,
    Piece.variable.injEq, String.ofList_inj, Option.some.injEq, and_true, and_false] at hpiece
  case plain.plain => rw [hpiece]
  case plain.doubledDollar =>
    subst hpiece
    obtain ⟨-, rfl⟩ := List.cons.inj h
    exact absurd (Or.inl ⟨'$', rfl, Or.inl rfl⟩) (hfirst rfl)
  case doubledDollar.plain =>
    subst hpiece
    obtain ⟨-, rfl⟩ := List.cons.inj h
    exact absurd (Or.inl ⟨'$', rfl, Or.inl rfl⟩) (hsecond rfl)
  case doubledDollar.doubledDollar => rfl
  case named.named => rw [hpiece]
  case named.braced => exact absurd h (source_named_ne hfirst)
  case braced.named => exact absurd h.symm (source_named_ne hsecond)
  case braced.braced => rw [hpiece]
  case defaulted.defaulted => rw [hpiece.1, hpiece.2]

theorem Part.length_source_pos (part : Part) : 0 < part.source.length := by
  cases part <;> simp [source]

/-- Every text can be read. -/
theorem exists_reading (text : List Char) : ∃ parts, ReadsAs text parts := by
  induction hlength : text.length using Nat.strong_induction_on generalizing text with
  | _ length ih =>
      cases text with
      | nil => exact ⟨[], .nil⟩
      | cons char others =>
          obtain ⟨part, rest, hfits, hsource⟩ := exists_part char others
          have hshorter : rest.length < length := by
            have hpositive := part.length_source_pos
            rw [← hlength, ← hsource, List.length_append]
            omega
          obtain ⟨parts, hparts⟩ := ih rest.length hshorter rest rfl
          exact ⟨part :: parts, hsource ▸ .cons hfits hparts⟩

theorem ReadsAs.unique {text : List Char} {parts others : List Part} (h : ReadsAs text parts)
    (hother : ReadsAs text others) : parts = others := by
  have hnotEmpty (part : Part) (rest : List Char) : part.source ++ rest ≠ [] :=
    List.append_ne_nil_of_left_ne_nil (List.length_pos_iff.mp part.length_source_pos) rest
  induction h generalizing others with
  | nil =>
      generalize htext : ([] : List Char) = text at hother
      cases hother with
      | nil => rfl
      | cons hfits hrest => exact absurd htext.symm (hnotEmpty _ _)
  | cons hfits hrest ih =>
      rename_i part rest parts
      generalize htext : part.source ++ rest = text at hother
      cases hother with
      | nil => exact absurd htext (hnotEmpty part rest)
      | cons hfits' hrest' =>
          obtain rfl := part_unique hfits hfits' htext
          obtain rfl := List.append_cancel_left htext
          rw [ih hrest']

theorem substitute?_eq {text : String} {parts : List Part} (h : ReadsAs text.toList parts)
    (environment : Environment) :
    environment.substitute? text =
      (parts.mapM (Part.value? environment)).map String.join := by
  have hvalues : (parts.map Part.piece).mapM (Piece.expand? environment) =
      parts.mapM (Part.value? environment) := by
    rw [List.mapM_map]
    exact congrArg (parts.mapM ·) (funext (Part.expand?_piece environment))
  rw [substitute?, h.ofChars_eq, hvalues]

/-- Where one part has no value, the text is left as it is. -/
theorem expand_unset {environment : Environment} {text : String} {parts : List Part}
    (h : ReadsAs text.toList parts) (hunset : ∃ part ∈ parts, part.value? environment = none) :
    environment.expand text = text := by
  rw [expand, substitute?_eq h, mapM_eq_none hunset]
  rfl

section AllSet

variable {environment : Environment} {text : String} {parts : List Part}
  (h : ReadsAs text.toList parts) (hset : ∀ part ∈ parts, part.value? environment ≠ none)

include h hset

theorem expand_plain (hhome : text.toList.head? ≠ some '~') :
    environment.expand text = String.join (parts.filterMap (Part.value? environment)) := by
  rw [expand, substitute?_eq h, mapM_eq_filterMap hset]
  exact if_neg hhome

theorem expand_home (hhome : text.toList.head? = some '~') :
    environment.expand text =
      environment.expandHome (String.join (parts.filterMap (Part.value? environment))) := by
  rw [expand, substitute?_eq h, mapM_eq_filterMap hset]
  exact if_pos hhome

end AllSet

/-- What a `~` stands for at the start of a text, by what comes after it: the home directory if
nothing does or a slash. -/
def tilde (environment : Environment) (after : String) : String :=
  if after.toList.head?.all (· == '/') then environment.home?.getD "~" else "~"

theorem expandHome_tilde (environment : Environment) (after : String) :
    environment.expandHome ("~" ++ after) = environment.tilde after ++ after := by
  have htext : ("~" ++ after).toList = '~' :: after.toList := by simp
  have hsame : String.ofList after.toList = after := String.ofList_toList
  rw [expandHome, htext, tilde]
  cases environment.home? with
  | none => simp
  | some home =>
      cases hafter : after.toList with
      | nil =>
          rw [hafter] at hsame
          simp [← hsame]
      | cons next others =>
          rw [hafter] at hsame
          by_cases hslash : next = '/'
          · subst hslash
            rw [← hsame]
            rfl
          · simp [hslash]

/-- A text that begins with `~` is read with this character first. -/
theorem ReadsAs.tilde_first {text : List Char} {parts : List Part} (h : ReadsAs text parts)
    (hhome : text.head? = some '~') : ∃ others, parts = .plain '~' :: others := by
  cases h with
  | nil => cases hhome
  | cons hfits hrest =>
      rename_i part rest others
      cases part with
      | plain char =>
          obtain ⟨rfl⟩ := hhome
          exact ⟨others, rfl⟩
      | doubledDollar | named name | braced name | defaulted name default =>
          simp [Part.source] at hhome

theorem expand_tilde {environment : Environment} {text : String} {parts : List Part}
    (h : ReadsAs text.toList parts) (hset : ∀ part ∈ parts, part.value? environment ≠ none)
    (hhome : text.toList.head? = some '~') :
    ∃ after, parts.filterMap (Part.value? environment) = "~" :: after ∧
      environment.expand text = environment.tilde (String.join after) ++ String.join after := by
  rw [expand_home h hset hhome]
  obtain ⟨others, rfl⟩ := h.tilde_first hhome
  have hvalues : (Part.plain '~' :: others).filterMap (Part.value? environment) =
      "~" :: others.filterMap (Part.value? environment) := rfl
  refine ⟨_, hvalues, ?_⟩
  rw [hvalues, String.join_cons, expandHome_tilde]

/-- The text with every dollar sign written twice. -/
def doubleDollars (text : String) : String :=
  String.ofList (text.toList.flatMap fun char => if char = '$' then ['$', '$'] else [char])

/-- The part that a character stands for when its dollar signs are written twice. -/
def Part.quoted (char : Char) : Part :=
  if char = '$' then .doubledDollar else .plain char

theorem reads_doubled (text : List Char) :
    ReadsAs (text.flatMap fun char => if char = '$' then ['$', '$'] else [char])
      (text.map Part.quoted) := by
  induction text with
  | nil => exact .nil
  | cons char rest ih =>
      rw [List.flatMap_cons, List.map_cons]
      by_cases hchar : char = '$'
      · rw [if_pos hchar, Part.quoted, if_pos hchar]
        exact ReadsAs.cons (show Part.doubledDollar.Fits _ from trivial) ih
      · rw [if_neg hchar, Part.quoted, if_neg hchar]
        have hfits (after : List Char) : (Part.plain char).Fits after := fun h => absurd h hchar
        exact ReadsAs.cons (hfits _) ih

theorem Part.value?_quoted (environment : Environment) (char : Char) :
    (Part.quoted char).value? environment = some (String.singleton char) := by
  by_cases hchar : char = '$'
  · rw [quoted, if_pos hchar, hchar]
    rfl
  · rw [quoted, if_neg hchar]
    rfl

/-- With its dollar signs written twice a text stands for itself. -/
theorem expand_doubled (environment : Environment) {text : String}
    (hhome : text.toList.head? ≠ some '~') : environment.expand (doubleDollars text) = text := by
  have hreads : ReadsAs (doubleDollars text).toList (text.toList.map Part.quoted) := by
    rw [doubleDollars, String.toList_ofList]
    exact reads_doubled text.toList
  have hset : ∀ part ∈ text.toList.map Part.quoted, part.value? environment ≠ none := by
    intro part hpart
    obtain ⟨char, -, rfl⟩ := List.mem_map.mp hpart
    rw [Part.value?_quoted]
    exact Option.some_ne_none _
  have hvalues : (text.toList.map Part.quoted).filterMap (Part.value? environment) =
      text.toList.map String.singleton := by
    rw [List.filterMap_map]
    simp only [Function.comp_def, Part.value?_quoted]
    exact congrFun List.filterMap_eq_map' text.toList
  have hfirst : (doubleDollars text).toList.head? ≠ some '~' := by
    rw [doubleDollars, String.toList_ofList]
    cases hchars : text.toList with
    | nil => simp
    | cons char rest =>
        rw [hchars] at hhome
        by_cases hchar : char = '$'
        · simp [hchar]
        · simpa [hchar] using hhome
  rw [expand_plain hreads hset hfirst, hvalues, join_singletons, String.ofList_toList]

/-- Every text is read as parts in one way, which decides what it is expanded to. If a variable
without a default is unset, the whole text is left as it is. Otherwise the values of the parts stand
in their places and are not read again; if the text itself begins with `~`, this stands for the home
directory, alone or before a slash. A text with its dollar signs written twice is expanded to the
text. -/
theorem expand_all_or_nothing (environment : Environment) (text : String) :
    (∃! parts, ReadsAs text.toList parts) ∧
    (∀ parts, ReadsAs text.toList parts →
      ((∃ part ∈ parts, part.value? environment = none) → environment.expand text = text) ∧
      ((∀ part ∈ parts, part.value? environment ≠ none) →
        let values := parts.filterMap (Part.value? environment)
        (text.toList.head? ≠ some '~' → environment.expand text = String.join values) ∧
        (text.toList.head? = some '~' → ∃ after, values = "~" :: after ∧
          environment.expand text =
            environment.tilde (String.join after) ++ String.join after))) ∧
    (text.toList.head? ≠ some '~' → environment.expand (doubleDollars text) = text) := by
  obtain ⟨parts, hparts⟩ := exists_reading text.toList
  refine ⟨⟨parts, hparts, fun others hothers => hothers.unique hparts⟩, ?_,
    expand_doubled environment⟩
  intro parts hreads
  exact ⟨expand_unset hreads, fun hset => ⟨expand_plain hreads hset, expand_tilde hreads hset⟩⟩

/-- A value with a dollar sign in it is put in and not read, and a reference to a variable that is
not set leaves everything as it is. -/
theorem expand_home_and_value :
    let environment : Environment := ⟨[("HOME", "/home/user"), ("A", "$B")], none⟩
    environment.expand "~/$A" = "/home/user/$B" ∧ environment.expand "~/$A$B" = "~/$A$B" ∧
      environment.expand "a$$A" = "a$A" := by
  intro environment
  have hA : Text.isWordChar 'A' = true := by
    rw [Text.isWordChar, Text.isAlphanumeric, ← Array.any_toList]
    decide +kernel
  have hB : Text.isWordChar 'B' = true := by
    rw [Text.isWordChar, Text.isAlphanumeric, ← Array.any_toList]
    decide +kernel
  have hplain {char : Char} (hchar : char ≠ '$') (rest : List Char) :
      (Part.plain char).Fits rest := fun h => absurd h hchar
  have hnamed {char : Char} (hchar : Text.isWordChar char = true) {rest : List Char}
      (hrest : ∀ next ∈ rest.head?, Text.isWordChar next = false) :
      (Part.named [char]).Fits rest :=
    ⟨List.cons_ne_nil _ _, List.forall_mem_singleton.mpr hchar, hrest⟩
  have hend : ∀ next ∈ ([] : List Char).head?, Text.isWordChar next = false := by
    simp
  have hset : ReadsAs "~/$A".toList [.plain '~', .plain '/', .named ['A']] :=
    .cons (hplain (by decide) _) (.cons (hplain (by decide) _) (.cons (hnamed hA hend) .nil))
  have hunset : ReadsAs "~/$A$B".toList [.plain '~', .plain '/', .named ['A'], .named ['B']] := by
    refine .cons (hplain (by decide) _) (.cons (hplain (by decide) _)
      (.cons (hnamed hA ?_) (.cons (hnamed hB hend) .nil)))
    rintro next ⟨⟩
    exact isWordChar_dollar
  obtain ⟨-, hall, -⟩ := expand_all_or_nothing environment "~/$A"
  obtain ⟨after, hvalues, hexpand⟩ := ((hall _ hset).2 (by decide)).2 (by decide)
  obtain ⟨-, hall', -⟩ := expand_all_or_nothing environment "~/$A$B"
  obtain ⟨-, -, hdoubled⟩ := expand_all_or_nothing environment "a$A"
  have hafter : after = ["/", "$B"] := (List.cons.inj hvalues).2.symm
  refine ⟨?_, (hall' _ hunset).1 (by decide), hdoubled (by decide)⟩
  rw [hexpand, hafter]
  decide

end Environment

end SettingsLang
