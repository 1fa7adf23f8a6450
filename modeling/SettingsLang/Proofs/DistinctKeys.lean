import SettingsLang.Proofs.Grammar
import SettingsLang.Toml.Document

/-!
No table of a document has a key twice. While a document is read a table only grows by keys that it
does not have yet, and what stands under the others is changed in place.
-/

namespace SettingsLang.Toml

theorem mem_of_lookup {α β : Type} [BEq α] [LawfulBEq α] {pairs : List (α × β)} {key : α}
    {value : β} (h : pairs.lookup key = some value) : (key, value) ∈ pairs := by
  obtain ⟨before, after, rfl, -⟩ := List.lookup_eq_some_iff.mp h
  simp

theorem lookup_eq_none_of_notMem {α β : Type} [BEq α] [LawfulBEq α] {pairs : List (α × β)}
    {key : α} (h : key ∉ pairs.map (·.1)) : pairs.lookup key = none := by
  refine List.lookup_eq_none_iff.mpr fun pair hpair => bne_iff_ne.mpr ?_
  rintro rfl
  exact h (List.mem_map_of_mem (f := (·.1)) hpair)

theorem lookup_cons_of_ne {α β : Type} [BEq α] [LawfulBEq α] {key held : α} (h : key ≠ held)
    (value : β) (pairs : List (α × β)) :
    ((held, value) :: pairs).lookup key = pairs.lookup key := by
  rw [List.lookup_cons, beq_eq_false_iff_ne.mpr h]

/-- No table in a part of a document has a key twice, nor will it when the part is closed. -/
inductive Draft.Distinct : Draft → Prop where
  | closed {value : Value} (value_distinct : value.KeysDistinct) : Distinct (.closed value)
  | table {origin : Origin} {entries : Draft.Entries} (keys : (entries.map (·.1)).Nodup)
      (drafts : ∀ entry ∈ entries, Distinct entry.2) : Distinct (.table origin entries)
  | tables {elements : List Draft.Entries}
      (keys : ∀ element ∈ elements, (element.map (·.1)).Nodup)
      (drafts : ∀ element ∈ elements, ∀ entry ∈ element, Distinct entry.2) :
      Distinct (.tables elements)

namespace Draft.Entries

structure Distinct (entries : Entries) : Prop where
  keys : (entries.map (·.1)).Nodup
  drafts : ∀ entry ∈ entries, entry.2.Distinct

theorem distinct_nil : Distinct [] :=
  ⟨List.nodup_nil, by simp⟩

theorem Distinct.toTable {entries : Entries} (h : entries.Distinct) (origin : Origin) :
    (Draft.table origin entries).Distinct :=
  .table h.keys h.drafts

theorem Distinct.ofTable {origin : Origin} {entries : Entries}
    (h : (Draft.table origin entries).Distinct) : entries.Distinct := by
  cases h with
  | table keys drafts => exact ⟨keys, drafts⟩

theorem distinct_tables_iff {elements : List Entries} :
    (Draft.tables elements).Distinct ↔ ∀ element ∈ elements, element.Distinct := by
  constructor
  · intro h
    cases h with
    | tables keys drafts => exact fun element hmem => ⟨keys element hmem, drafts element hmem⟩
  · exact fun h => .tables (fun element hmem => (h element hmem).keys)
      fun element hmem => (h element hmem).drafts

variable {entries after : Entries} {key : String} {draft : Draft}

theorem Distinct.lookup (h : entries.Distinct) (hlookup : entries.lookup key = some draft) :
    draft.Distinct :=
  h.drafts _ (mem_of_lookup hlookup)

theorem Distinct.add (h : entries.Distinct) (hdraft : draft.Distinct)
    (hnew : key ∉ entries.map (·.1)) : (entries ++ [(key, draft)]).Distinct := by
  refine ⟨?_, fun entry hentry => ?_⟩
  · rw [List.map_append, List.nodup_append]
    refine ⟨h.keys, by simp, fun held hheld added hadded hsame => hnew ?_⟩
    obtain rfl : added = key := by simpa using hadded
    rw [← hsame]
    exact hheld
  · obtain hold | hadded := List.mem_append.mp hentry
    · exact h.drafts entry hold
    · rw [List.mem_singleton.mp hadded]
      exact hdraft

theorem notMem_keys_of_lookup (h : entries.lookup key = none) : key ∉ entries.map (·.1) := by
  intro hmem
  obtain ⟨entry, hentry, rfl⟩ := List.mem_map.mp hmem
  exact absurd (List.lookup_eq_none_iff.mp h entry hentry) (by simp)

theorem keys_replace : (entries.replace key draft).map (·.1) = entries.map (·.1) := by
  rw [replace, List.map_map]
  refine List.map_congr_left fun entry _ => ?_
  by_cases hkey : entry.1 = key <;> simp [hkey]

theorem Distinct.replace (h : entries.Distinct) (hdraft : draft.Distinct) :
    (entries.replace key draft).Distinct := by
  refine ⟨by rw [keys_replace]; exact h.keys, fun entry hentry => ?_⟩
  obtain ⟨held, hheld, rfl⟩ := List.mem_map.mp hentry
  split
  · exact hdraft
  · exact h.drafts held hheld

theorem Distinct.erase_add (h : entries.Distinct) (hdraft : draft.Distinct) :
    (entries.erase key ++ [(key, draft)]).Distinct := by
  have hsub : (entries.erase key).Sublist entries := List.filter_sublist
  refine Distinct.add ⟨h.keys.sublist (hsub.map _), fun entry hentry => ?_⟩ hdraft ?_
  · exact h.drafts entry (hsub.subset hentry)
  · intro hmem
    obtain ⟨entry, hentry, rfl⟩ := List.mem_map.mp hmem
    simp [erase] at hentry

/-- A change of a table leaves every key of it there once. -/
def Keeps (change : Entries → Option Entries) : Prop :=
  ∀ ⦃entries after : Entries⦄, change entries = some after → entries.Distinct → after.Distinct

theorem Distinct.onLast {elements : List Entries} {change : Entries → Option Entries}
    (hchange : Keeps change) (h : entries.Distinct)
    (helements : (Draft.tables elements).Distinct)
    (hafter : entries.onLast key elements change = some after) : after.Distinct := by
  rw [distinct_tables_iff] at helements
  rw [Entries.onLast] at hafter
  split at hafter
  · cases hafter
  · next last hlast =>
      obtain ⟨changed, hchanged, rfl⟩ := Option.map_eq_some_iff.mp hafter
      refine h.replace (distinct_tables_iff.mpr fun element hmem => ?_)
      obtain hfirst | hnew := List.mem_append.mp hmem
      · exact helements element (List.dropLast_subset _ hfirst)
      · rw [List.mem_singleton.mp hnew]
        exact hchange hchanged (helements last (List.mem_of_getLast? hlast))

theorem keeps_insert {value : Value} (hvalue : value.KeysDistinct) (outer : List String) :
    Keeps (insert key value outer) := by
  induction outer with
  | nil =>
      intro entries after hafter h
      rw [insert] at hafter
      split at hafter
      · next hnew =>
          cases hafter
          exact h.add (.closed hvalue) (notMem_keys_of_lookup hnew)
      · cases hafter
  | cons name inner ih =>
      intro entries after hafter h
      rw [insert] at hafter
      split at hafter
      · next hnew =>
          obtain ⟨sub, hsub, rfl⟩ := Option.map_eq_some_iff.mp hafter
          exact h.add ((ih hsub distinct_nil).toTable _) (notMem_keys_of_lookup hnew)
      · next hheld =>
          obtain ⟨sub, hsub, rfl⟩ := Option.map_eq_some_iff.mp hafter
          exact h.replace ((ih hsub (.ofTable (h.lookup hheld))).toTable _)
      · next hheld =>
          split at hafter
          · cases hafter
          · obtain ⟨sub, hsub, rfl⟩ := Option.map_eq_some_iff.mp hafter
            exact h.replace ((ih hsub (.ofTable (h.lookup hheld))).toTable _)
      · next hheld =>
          split at hafter
          · cases hafter
          · exact h.onLast ih (h.lookup hheld) hafter
      · cases hafter
      · cases hafter

theorem keeps_foldlM {α : Type} {change : Entries → α → Option Entries} {parts : List α}
    (hchange : ∀ part ∈ parts, Keeps (change · part)) : Keeps (parts.foldlM change) := by
  induction parts with
  | nil =>
      rintro entries after ⟨⟩ h
      exact h
  | cons part rest ih =>
      intro entries after hafter h
      obtain ⟨hpart, hothers⟩ := List.forall_mem_cons.mp hchange
      obtain ⟨middle, hmiddle, hrest⟩ := Option.bind_eq_some_iff.mp hafter
      exact ih hothers hrest (hpart hmiddle h)

theorem keeps_fill {pairs : List (KeyPath × Value)}
    (hpairs : ∀ pair ∈ pairs, pair.2.KeysDistinct) : Keeps (fill · pairs) :=
  keeps_foldlM fun pair hpair => keeps_insert (hpairs pair hpair) _

theorem keeps_within {change : Entries → Option Entries} (hchange : Keeps change)
    (outer : List String) : Keeps (within change outer) := by
  induction outer with
  | nil => exact hchange
  | cons name inner ih =>
      intro entries after hafter h
      rw [within] at hafter
      split at hafter
      · next hnew =>
          obtain ⟨sub, hsub, rfl⟩ := Option.map_eq_some_iff.mp hafter
          exact h.add ((ih hsub distinct_nil).toTable _) (notMem_keys_of_lookup hnew)
      · next hheld =>
          obtain ⟨sub, hsub, rfl⟩ := Option.map_eq_some_iff.mp hafter
          exact h.replace ((ih hsub (.ofTable (h.lookup hheld))).toTable _)
      · next hheld => exact h.onLast ih (h.lookup hheld) hafter
      · cases hafter

variable {pairs : List (KeyPath × Value)}

theorem keeps_addTable (hpairs : ∀ pair ∈ pairs, pair.2.KeysDistinct) :
    Keeps (addTable key pairs) := by
  intro entries after hafter h
  rw [addTable] at hafter
  split at hafter
  · next hnew =>
      obtain ⟨sub, hsub, rfl⟩ := Option.map_eq_some_iff.mp hafter
      exact h.add ((keeps_fill hpairs hsub distinct_nil).toTable _) (notMem_keys_of_lookup hnew)
  · next hheld =>
      obtain ⟨sub, hsub, rfl⟩ := Option.map_eq_some_iff.mp hafter
      exact h.erase_add ((keeps_fill hpairs hsub (.ofTable (h.lookup hheld))).toTable _)
  · cases hafter

theorem keeps_addElement (hpairs : ∀ pair ∈ pairs, pair.2.KeysDistinct) :
    Keeps (addElement key pairs) := by
  intro entries after hafter h
  rw [addElement] at hafter
  split at hafter
  · next hnew =>
      obtain ⟨element, helement, rfl⟩ := Option.map_eq_some_iff.mp hafter
      have helement := keeps_fill hpairs helement distinct_nil
      exact h.add (distinct_tables_iff.mpr (List.forall_mem_singleton.mpr helement))
        (notMem_keys_of_lookup hnew)
  · next hheld =>
      obtain ⟨element, helement, rfl⟩ := Option.map_eq_some_iff.mp hafter
      have helement := keeps_fill hpairs helement distinct_nil
      exact h.replace (distinct_tables_iff.mpr (List.forall_mem_append.mpr
        ⟨distinct_tables_iff.mp (h.lookup hheld), List.forall_mem_singleton.mpr helement⟩))
  · cases hafter

end Draft.Entries

theorem Section.keeps_place {part : Section} (hpairs : ∀ pair ∈ part.pairs, pair.2.KeysDistinct) :
    Draft.Entries.Keeps (Section.place · part) := by
  unfold Section.place
  refine Draft.Entries.keeps_within ?_ _
  split
  · exact Draft.Entries.keeps_addElement hpairs
  · exact Draft.Entries.keeps_addTable hpairs

namespace Draft

theorem closeEntries_eq (entries : Entries) :
    closeEntries entries = entries.map fun entry => (entry.1, entry.2.close) := by
  induction entries with
  | nil => rfl
  | cons entry rest ih => rw [closeEntries, ih, List.map_cons]

theorem closeElements_eq (elements : List Entries) :
    closeElements elements = elements.map fun element => .table (closeEntries element) := by
  induction elements with
  | nil => rfl
  | cons element rest ih => rw [closeElements, ih, List.map_cons]

theorem keysDistinct_closeEntries {entries : Entries} (hkeys : (entries.map (·.1)).Nodup)
    (hvalues : ∀ entry ∈ entries, entry.2.close.KeysDistinct) :
    (Value.table (closeEntries entries)).KeysDistinct := by
  rw [closeEntries_eq]
  refine .table ?_ fun entry hentry => ?_
  · rw [List.map_map]
    exact hkeys
  · obtain ⟨draft, hdraft, rfl⟩ := List.mem_map.mp hentry
    exact hvalues draft hdraft

theorem Distinct.close {draft : Draft} (h : draft.Distinct) : draft.close.KeysDistinct := by
  induction h with
  | closed hvalue =>
      rw [Draft.close]
      exact hvalue
  | table keys _ ih =>
      rw [Draft.close]
      exact keysDistinct_closeEntries keys ih
  | tables keys _ ih =>
      rw [Draft.close, closeElements_eq]
      refine .array fun value hvalue => ?_
      obtain ⟨element, hmem, rfl⟩ := List.mem_map.mp hvalue
      exact keysDistinct_closeEntries (keys element hmem) (ih element hmem)

theorem Entries.Distinct.closeEntries {entries : Entries} (h : entries.Distinct) :
    (Value.table (closeEntries entries)).KeysDistinct :=
  keysDistinct_closeEntries h.keys fun entry hentry => (h.drafts entry hentry).close

end Draft

/-- What a reader reads has a property. -/
def Yields {α : Type} (read : Reader α) (property : α → Prop) : Prop :=
  ∀ ⦃cs rest : List Char⦄ ⦃result : α⦄, read cs = some (result, rest) → property result

theorem bareValue?_keysDistinct {run : List Char} {value : Value}
    (h : bareValue? run = some value) : value.KeysDistinct := by
  unfold bareValue? at h
  split at h
  · cases h
    exact .boolean _
  · split at h
    · cases h
      exact .boolean _
    · split at h
      · cases h
        exact .datetime _
      · split at h <;> cases h
        · exact .integer _
        · exact .float _

theorem yields_bare? : Yields bare? Value.KeysDistinct := by
  intro cs rest value h
  have hplain (run after : List Char)
      (hrun : (bareValue? run).map (·, after) = some (value, rest)) : value.KeysDistinct := by
    obtain ⟨read, hread, hsame⟩ := Option.map_eq_some_iff.mp hrun
    cases hsame
    exact bareValue?_keysDistinct hread
  unfold bare? at h
  dsimp only at h
  split at h
  · split at h
    · split at h
      · cases h
        exact .datetime _
      · cases h
    · exact hplain _ _ h
  · exact hplain _ _ h

theorem yields_flat? : Yields flat? Value.KeysDistinct := by
  have htext {cs rest : List Char} {value : Value}
      (h : (string? cs).map (fun read => (Value.text read.1, read.2)) = some (value, rest)) :
      value.KeysDistinct := by
    obtain ⟨read, -, hsame⟩ := Option.map_eq_some_iff.mp h
    cases hsame
    exact .text _
  intro cs rest value h
  unfold flat? at h
  split at h
  · exact htext h
  · exact htext h
  · exact yields_bare? h

variable {value : Reader Value}

theorem yields_items? (hvalue : Yields value Value.KeysDistinct) (fuel : Nat) :
    Yields (items? value fuel) fun items => ∀ item ∈ items, item.KeysDistinct := by
  induction fuel with
  | zero =>
      rintro cs rest items ⟨⟩
  | succ fuel ih =>
      intro cs rest items h
      rw [items?] at h
      split at h
      · cases h
        simp
      · obtain ⟨⟨item, after⟩, hitem, h⟩ := Option.bind_eq_some_iff.mp h
        dsimp only at h
        split at h
        · cases h
          exact List.forall_mem_singleton.mpr (hvalue hitem)
        · obtain ⟨⟨others, _⟩, hothers, hsame⟩ := Option.bind_eq_some_iff.mp h
          cases hsame
          exact List.forall_mem_cons.mpr ⟨hvalue hitem, ih hothers⟩
        · cases h

theorem yields_pair? (hvalue : Yields value Value.KeysDistinct) :
    Yields (pair? value) fun pair => pair.2.KeysDistinct := by
  intro cs rest pair h
  obtain ⟨⟨path, _⟩, -, h⟩ := Option.bind_eq_some_iff.mp h
  obtain ⟨_, -, h⟩ := Option.bind_eq_some_iff.mp h
  obtain ⟨⟨read, _⟩, hread, hsame⟩ := Option.bind_eq_some_iff.mp h
  cases hsame
  exact hvalue hread

theorem yields_inlinePairs? (hvalue : Yields value Value.KeysDistinct) (fuel : Nat) :
    Yields (inlinePairs? value fuel) fun pairs => ∀ pair ∈ pairs, pair.2.KeysDistinct := by
  induction fuel with
  | zero =>
      rintro cs rest pairs ⟨⟩
  | succ fuel ih =>
      intro cs rest pairs h
      rw [inlinePairs?] at h
      obtain ⟨⟨pair, after⟩, hpair, h⟩ := Option.bind_eq_some_iff.mp h
      dsimp only at h
      split at h
      · cases h
        exact List.forall_mem_singleton.mpr (yields_pair? hvalue hpair)
      · obtain ⟨⟨others, _⟩, hothers, hsame⟩ := Option.bind_eq_some_iff.mp h
        cases hsame
        exact List.forall_mem_cons.mpr ⟨yields_pair? hvalue hpair, ih hothers⟩
      · cases h

theorem yields_inlineTable? (hvalue : Yields value Value.KeysDistinct) :
    Yields (inlineTable? value) Value.KeysDistinct := by
  intro cs rest table h
  rw [inlineTable?] at h
  split at h
  · cases h
    exact .table List.nodup_nil (by simp)
  · obtain ⟨⟨pairs, _⟩, hpairs, h⟩ := Option.bind_eq_some_iff.mp h
    obtain ⟨entries, hentries, hsame⟩ := Option.bind_eq_some_iff.mp h
    cases hsame
    have hdistinct := Draft.Entries.keeps_fill (yields_inlinePairs? hvalue _ hpairs) hentries
      Draft.Entries.distinct_nil
    exact hdistinct.closeEntries

theorem yields_value? (room : Nat) : Yields (value? room) Value.KeysDistinct := by
  induction room with
  | zero => exact yields_flat?
  | succ room ih =>
      intro cs rest value h
      rw [value?] at h
      dsimp only at h
      split at h
      · obtain ⟨⟨items, _⟩, hitems, hsame⟩ := Option.map_eq_some_iff.mp h
        cases hsame
        exact .array (yields_items? ih _ hitems)
      · exact yields_inlineTable? ih h
      · exact yields_flat? h

/-- Every value in a line of a document has distinct keys. -/
def Line.KeysDistinct : Line → Prop
  | .header _ => True
  | .pair _ value => value.KeysDistinct

theorem yields_line? : Yields line? Line.KeysDistinct := by
  intro cs rest line h
  unfold line? at h
  split at h
  · obtain ⟨⟨path, _⟩, -, h⟩ := Option.bind_eq_some_iff.mp h
    obtain ⟨_, -, h⟩ := Option.bind_eq_some_iff.mp h
    obtain ⟨_, -, h⟩ := Option.bind_eq_some_iff.mp h
    obtain ⟨_, -, hsame⟩ := Option.bind_eq_some_iff.mp h
    cases hsame
    trivial
  · obtain ⟨⟨path, _⟩, -, h⟩ := Option.bind_eq_some_iff.mp h
    obtain ⟨_, -, h⟩ := Option.bind_eq_some_iff.mp h
    obtain ⟨_, -, hsame⟩ := Option.bind_eq_some_iff.mp h
    cases hsame
    trivial
  · obtain ⟨⟨⟨path, read⟩, _⟩, hpair, h⟩ := Option.bind_eq_some_iff.mp h
    obtain ⟨_, -, hsame⟩ := Option.bind_eq_some_iff.mp h
    cases hsame
    exact yields_pair? (yields_value? _) hpair

theorem keysDistinct_of_lines? {fuel : Nat} {cs : List Char} {lines : List Line}
    (h : lines? fuel cs = some lines) : ∀ line ∈ lines, line.KeysDistinct := by
  induction fuel generalizing cs lines with
  | zero => cases h
  | succ fuel ih =>
      rw [lines?] at h
      split at h
      · cases h
        simp
      · obtain ⟨⟨first, _⟩, hfirst, h⟩ := Option.bind_eq_some_iff.mp h
        obtain ⟨others, hothers, hsame⟩ := Option.bind_eq_some_iff.mp h
        cases hsame
        exact List.forall_mem_cons.mpr ⟨yields_line? hfirst, ih hothers⟩

theorem keysDistinct_of_sections {lines : List Line} (h : ∀ line ∈ lines, line.KeysDistinct) :
    (∀ pair ∈ (sections lines).1, pair.2.KeysDistinct) ∧
      ∀ part ∈ (sections lines).2, ∀ pair ∈ part.pairs, pair.2.KeysDistinct := by
  induction lines with
  | nil => simp [sections]
  | cons line rest ih =>
      obtain ⟨hline, hrest⟩ := List.forall_mem_cons.mp h
      obtain ⟨hpairs, hparts⟩ := ih hrest
      cases line with
      | pair path value =>
          rw [sections]
          exact ⟨List.forall_mem_cons.mpr ⟨hline, hpairs⟩, hparts⟩
      | header header =>
          rw [sections]
          exact ⟨by simp, List.forall_mem_cons.mpr ⟨hpairs, hparts⟩⟩

/-- No table of a document that is well-formed has a key twice. -/
theorem keysDistinct_of_parse? {document : String} {entries : List (String × Value)}
    (h : parse? document = some entries) : (Value.table entries).KeysDistinct := by
  obtain ⟨lines, hlines, h⟩ := Option.bind_eq_some_iff.mp h
  obtain ⟨hpairs, hparts⟩ := keysDistinct_of_sections (keysDistinct_of_lines? hlines)
  obtain ⟨top, htop, h⟩ := Option.bind_eq_some_iff.mp h
  obtain ⟨whole, hwhole, hsame⟩ := Option.bind_eq_some_iff.mp h
  cases hsame
  have hplace :=
    Draft.Entries.keeps_foldlM fun part hpart => Section.keeps_place (hparts part hpart)
  have hdistinct := hplace hwhole (Draft.Entries.keeps_fill hpairs htop Draft.Entries.distinct_nil)
  exact hdistinct.closeEntries

end SettingsLang.Toml
