import RemoteTree.Proofs.Text.Pairs
import RemoteTree.Proofs.Value.Parts

/-!
# Values with surrogate pairs

What is read back of a value has no surrogate pair in its texts: the halves of one have become a character, and
keys that differed in nothing else have become one key.

* `Value.forall_entriesOf`, `Value.entriesOf_of_apart`: what a dictionary made of a row of entries has, and that
  it has just these entries if their keys are apart.
* `Value.Plain`: a value of the types that are read, floats apart.
* `Value.paired`: the value with the pairs joined in all its texts.
* `Value.Unpaired`: a text without pairs, or a dictionary whose keys have none.
* `everywhere_unpaired_paired`, `paired_eq_self_iff`: **pairs are gone once they are joined**, and a value stays
  as it is exactly if it has none.
-/

namespace RemoteTree.Value

/-! ## Entries in a row -/

variable {entries : List (Value × Value)} {P Q : Value → Prop}

theorem forall_insertEntry {k v : Value} (hk : P k) (hv : Q v) (h : ∀ e ∈ entries, P e.1 ∧ Q e.2) :
    ∀ e ∈ insertEntry k v entries, P e.1 ∧ Q e.2 := by
  induction entries with
  | nil =>
    intro e he
    obtain rfl := List.mem_singleton.1 he
    exact ⟨hk, hv⟩
  | cons e entries ih =>
    rw [List.forall_mem_cons] at h
    unfold insertEntry
    split
    · exact List.forall_mem_cons.2 ⟨⟨h.1.1, hv⟩, h.2⟩
    · exact List.forall_mem_cons.2 ⟨h.1, ih h.2⟩

/-- The keys and the values of a dictionary are those of the entries that it is made of. -/
theorem forall_entriesOf (h : ∀ e ∈ entries, P e.1 ∧ Q e.2) : ∀ e ∈ entriesOf entries, P e.1 ∧ Q e.2 := by
  have hfold : ∀ done : List (Value × Value), (∀ e ∈ done, P e.1 ∧ Q e.2) →
      ∀ e ∈ entries.foldl (fun done e => insertEntry e.1 e.2 done) done, P e.1 ∧ Q e.2 := by
    induction entries with
    | nil => exact fun done hdone => hdone
    | cons e entries ih =>
      rw [List.forall_mem_cons] at h
      exact fun done hdone => ih h.2 _ (forall_insertEntry h.1.1 h.1.2 hdone)
  exact hfold [] fun e he => nomatch he

/-- A key that is new comes last. -/
theorem insertEntry_of_new {k v : Value} (h : ∀ e ∈ entries, sameKey e.1 k = false) :
    insertEntry k v entries = entries ++ [(k, v)] := by
  induction entries with
  | nil => rfl
  | cons e entries ih =>
    rw [List.forall_mem_cons] at h
    rw [insertEntry, h.1, ih h.2]
    rfl

/-- **Entries whose keys are apart** all remain, in their order. -/
theorem entriesOf_of_apart (h : entries.Pairwise fun e f => sameKey e.1 f.1 = false) :
    entriesOf entries = entries := by
  have hfold : ∀ done : List (Value × Value),
      (done ++ entries).Pairwise (fun e f => sameKey e.1 f.1 = false) →
        entries.foldl (fun done e => insertEntry e.1 e.2 done) done = done ++ entries := by
    clear h
    induction entries with
    | nil => exact fun done _ => (List.append_nil done).symm
    | cons e entries ih =>
      intro done hdone
      have hnew : ∀ f ∈ done, sameKey f.1 e.1 = false :=
        fun f hf => (List.pairwise_append.1 hdone).2.2 f hf e List.mem_cons_self
      rw [List.foldl_cons, insertEntry_of_new hnew, ih _ (by simpa using hdone)]
      simp
  exact hfold [] h

/-! ## Plain values -/

/-- A value of the types that are read, floats apart: the keys of a dictionary are texts, no two of them the
same. What stands for a container stands for a list or a dictionary. -/
def Plain : Value → Prop
  | .none | .bool _ | .int _ | .text _ | .list _ | .again _ => True
  | .dict entries => ∃ keys : List Text, keys.Nodup ∧ entries.map Prod.fst = keys.map .text
  | .float _ | .bytes _ | .tuple _ | .set _ | .object => False

/-- The keys of a plain dictionary are texts. -/
theorem Plain.key (h : (Value.dict entries).Plain) : ∀ e ∈ entries, ∃ t, e.1 = .text t := by
  obtain ⟨keys, -, hkeys⟩ := h
  intro e he
  have hmem : e.1 ∈ keys.map Value.text := hkeys ▸ List.mem_map_of_mem he
  obtain ⟨t, -, ht⟩ := List.mem_map.1 hmem
  exact ⟨t, ht.symm⟩

/-- The keys of a plain dictionary are apart. -/
theorem Plain.apart (h : (Value.dict entries).Plain) : entries.Pairwise fun e f => sameKey e.1 f.1 = false := by
  obtain ⟨keys, hnodup, hkeys⟩ := h
  have hapart : (keys.map Value.text).Pairwise fun a b => sameKey a b = false := by
    rw [List.pairwise_map]
    refine hnodup.imp fun hne => ?_
    rw [sameKey]
    exact beq_false_of_ne hne
  rw [← hkeys, List.pairwise_map] at hapart
  exact hapart

/-! ## Pairs joined -/

mutual

/-- The value with the pairs of surrogates joined in all its texts, the keys of its dictionaries included. -/
def paired : Value → Value
  | .text t => .text (Utf16.pair t)
  | .list items => .list (pairedItems items)
  | .dict entries => .dict (entriesOf (pairedEntries entries))
  | v => v

/-- The items of a list, each of them paired. -/
def pairedItems : List Value → List Value
  | [] => []
  | v :: rest => paired v :: pairedItems rest

/-- The entries of a dictionary, keys and values paired. -/
def pairedEntries : List (Value × Value) → List (Value × Value)
  | [] => []
  | (k, v) :: rest => (paired k, paired v) :: pairedEntries rest

end

theorem paired_list (items : List Value) : paired (.list items) = .list (items.map paired) := by
  have hitems : pairedItems items = items.map paired := by
    induction items with
    | nil => rfl
    | cons v rest ih => rw [pairedItems, ih, List.map_cons]
  rw [paired, hitems]

theorem paired_dict (entries : List (Value × Value)) :
    paired (.dict entries) = .dict (entriesOf (entries.map fun e => (paired e.1, paired e.2))) := by
  have hentries : pairedEntries entries = entries.map fun e => (paired e.1, paired e.2) := by
    induction entries with
    | nil => rfl
    | cons e rest ih => rw [pairedEntries, ih, List.map_cons]
  rw [paired, hentries]

/-- A key without a surrogate pair, or one that is no text. -/
def UnpairedKey (k : Value) : Prop := ∀ t, k = .text t → ¬t.HasPair

/-- A text without pairs, or a dictionary whose keys have none. -/
def Unpaired : Value → Prop
  | .text t => ¬t.HasPair
  | .dict entries => ∀ e ∈ entries, UnpairedKey e.1
  | _ => True

/-- A value mentions a text with a pair unless it is unpaired all over. -/
theorem everywhere_unpaired_iff {v : Value} :
    v.Everywhere Unpaired ↔ ¬∃ t, v.Mentions (.text t) ∧ t.HasPair := by
  constructor
  · rintro h ⟨t, ⟨depth, hp⟩ | ⟨depth, entries, w, hp, he⟩, ht⟩
    · exact h depth _ hp ht
    · exact h depth _ hp _ he t rfl ht
  · intro h depth p hp
    cases p with
    | text t => exact fun ht => h ⟨t, .inl ⟨depth, hp⟩, ht⟩
    | dict entries =>
      rintro ⟨k, w⟩ he t rfl ht
      exact h ⟨t, .inr ⟨depth, entries, w, hp, he⟩, ht⟩
    | _ => trivial

/-- **Pairs are gone once they are joined.** -/
theorem everywhere_unpaired_paired {v : Value} (h : v.Everywhere Plain) : v.paired.Everywhere Unpaired := by
  induction v using Value.induction with
  | step v ih =>
    obtain ⟨hv, hinner⟩ := everywhere_iff.1 h
    rw [everywhere_iff]
    cases v with
    | text t =>
      rw [paired]
      exact ⟨Utf16.not_hasPair_pair t, fun w hw => nomatch hw⟩
    | list items =>
      rw [paired_list]
      refine ⟨trivial, fun w hw => ?_⟩
      obtain ⟨u, hu, rfl⟩ := List.mem_map.1 hw
      exact ih u hu (hinner u hu)
    | dict entries =>
      have hall : ∀ e ∈ entriesOf (entries.map fun e => (paired e.1, paired e.2)),
          UnpairedKey e.1 ∧ e.2.Everywhere Unpaired := by
        refine forall_entriesOf fun e he => ?_
        obtain ⟨f, hf, rfl⟩ := List.mem_map.1 he
        have hmem : f.2 ∈ (Value.dict entries).inner := List.mem_map_of_mem hf
        refine ⟨?_, ih f.2 hmem (hinner f.2 hmem)⟩
        obtain ⟨t, ht⟩ := hv.key f hf
        intro u hu
        rw [ht, paired] at hu
        rw [← Value.text.inj hu]
        exact Utf16.not_hasPair_pair t
      rw [paired_dict]
      refine ⟨fun e he => (hall e he).1, fun w hw => ?_⟩
      obtain ⟨e, he, rfl⟩ := List.mem_map.1 hw
      exact (hall e he).2
    | none | bool | int | again => exact ⟨trivial, fun w hw => nomatch hw⟩
    | float | bytes | tuple | set | object => exact hv.elim

/-- A plain value without pairs stays as it is. -/
theorem paired_eq_self {v : Value} (h : v.Everywhere Plain) (hu : v.Everywhere Unpaired) : v.paired = v := by
  induction v using Value.induction with
  | step v ih =>
    obtain ⟨hv, hinner⟩ := everywhere_iff.1 h
    obtain ⟨huv, huinner⟩ := everywhere_iff.1 hu
    have hsame : ∀ w ∈ v.inner, w.paired = w := fun w hw => ih w hw (hinner w hw) (huinner w hw)
    cases v with
    | text t => rw [paired, Utf16.pair_eq_self_iff.2 huv]
    | list items =>
      have hitems : items.map paired = items := (List.map_congr_left hsame).trans (List.map_id items)
      rw [paired_list, hitems]
    | dict entries =>
      have hentries : entries.map (fun e => (paired e.1, paired e.2)) = entries := by
        refine (List.map_congr_left fun e he => ?_).trans (List.map_id entries)
        obtain ⟨t, ht⟩ := hv.key e he
        have hkey : paired e.1 = e.1 := by rw [ht, paired, Utf16.pair_eq_self_iff.2 (huv e he t ht)]
        rw [hkey, hsame e.2 (List.mem_map_of_mem he), id_eq]
      rw [paired_dict, hentries, entriesOf_of_apart hv.apart]
    | none | bool | int | again => rfl
    | float | bytes | tuple | set | object => exact hv.elim

/-- **A plain value stays as it is exactly if no text that it mentions has a pair.** -/
theorem paired_eq_self_iff {v : Value} (h : v.Everywhere Plain) :
    v.paired = v ↔ ¬∃ t, v.Mentions (.text t) ∧ t.HasPair := by
  rw [← everywhere_unpaired_iff]
  constructor
  · intro heq
    rw [← heq]
    exact everywhere_unpaired_paired h
  · exact paired_eq_self h

end RemoteTree.Value
