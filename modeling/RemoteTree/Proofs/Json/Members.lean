import Mathlib.Data.List.Induction
import RemoteTree.Proofs.Results
import RemoteTree.Session.Run

/-!
# The members of an object

An object is read into a dictionary member by member, and a later member takes the value from an earlier one of the
same name. So what is found under a name is the value of the last member with it.

* `Value.IsLast`: the value of the last entry under a text.
* `Value.lookup_entriesOf`: **what is found under a text is the value of its last entry.**
* `Json.IsObject`: a text that writes an object, with the members in the order in which they stand.
* `Json.readWhole_eq_dict_iff`: **a dictionary is read exactly off an object**, and has what remains of its members.
* `Session.NamesChild`: bytes that name a child; `namesChild_iff` says that these are the ones of which a creation
  reads a name.
-/

namespace RemoteTree

/-! ## Later entries -/

namespace Value

variable {k : Text} {v x : Value} {es : List (Value × Value)}

theorem sameKey_text_iff : sameKey x (.text k) = true ↔ x = .text k := by
  cases x with
  | text t => rw [sameKey, beq_iff_eq, Value.text.injEq]
  | _ => simp [sameKey, toInt?]

theorem text_sameKey_iff : sameKey (.text k) x = true ↔ x = .text k := by
  cases x with
  | text t => rw [sameKey, beq_iff_eq, Value.text.injEq, eq_comm]
  | _ => simp [sameKey, toInt?]

theorem lookup_cons_self : lookup (.text k) ((.text k, v) :: es) = some v := by
  have hsame : sameKey (.text k) (.text k) = true := sameKey_text_iff.2 rfl
  simp only [lookup, List.find?_cons, hsame, Option.map_some]

theorem lookup_cons_of_ne (h : x ≠ .text k) : lookup (.text k) ((x, v) :: es) = lookup (.text k) es := by
  have hother : sameKey x (.text k) = false := Bool.eq_false_iff.2 fun hsame => h (sameKey_text_iff.1 hsame)
  simp only [lookup, List.find?_cons, hother]

/-- An entry for a text is found under it. -/
theorem lookup_insertEntry_self : lookup (.text k) (insertEntry (.text k) v es) = some v := by
  induction es with
  | nil => exact lookup_cons_self
  | cons e es ih =>
    unfold insertEntry
    split
    · rename_i hsame
      rw [sameKey_text_iff.1 hsame]
      exact lookup_cons_self
    · rename_i hother
      rw [lookup_cons_of_ne fun heq => hother (sameKey_text_iff.2 heq), ih]

/-- An entry for anything else leaves what is found under a text as it is. -/
theorem lookup_insertEntry_of_ne (h : x ≠ .text k) :
    lookup (.text k) (insertEntry x v es) = lookup (.text k) es := by
  induction es with
  | nil => exact lookup_cons_of_ne h
  | cons e es ih =>
    obtain ⟨y, w⟩ := e
    unfold insertEntry
    split
    · rename_i hsame
      have hy : y ≠ .text k := by
        rintro rfl
        exact h (text_sameKey_iff.1 hsame)
      rw [lookup_cons_of_ne hy, lookup_cons_of_ne hy]
    · by_cases hy : y = .text k
      · rw [hy, lookup_cons_self, lookup_cons_self]
      · rw [lookup_cons_of_ne hy, lookup_cons_of_ne hy, ih]

/-- The value of the last entry under a text. -/
def IsLast (es : List (Value × Value)) (k : Text) (v : Value) : Prop :=
  ∃ before after, es = before ++ (.text k, v) :: after ∧ ∀ e ∈ after, e.1 ≠ .text k

theorem not_isLast_nil : ¬IsLast [] k v := by
  rintro ⟨before, after, heq, -⟩
  exact absurd heq.symm (by simp)

theorem isLast_concat_self {w : Value} : IsLast (es ++ [(.text k, w)]) k v ↔ w = v := by
  constructor
  · rintro ⟨before, after, heq, hafter⟩
    rcases List.eq_nil_or_concat after with rfl | ⟨front, e, rfl⟩
    · exact congrArg Prod.snd (List.append_singleton_inj.1 heq).2
    · -- the last entry is one of those behind the entry, so it has another key
      rw [List.concat_eq_append, ← List.cons_append, ← List.append_assoc] at heq
      have hlast := (List.append_singleton_inj.1 heq).2
      exact absurd (congrArg Prod.fst hlast).symm (hafter e (by simp))
  · rintro rfl
    exact ⟨es, [], rfl, fun e he => nomatch he⟩

theorem isLast_concat_of_ne {e : Value × Value} (h : e.1 ≠ .text k) : IsLast (es ++ [e]) k v ↔ IsLast es k v := by
  constructor
  · rintro ⟨before, after, heq, hafter⟩
    rcases List.eq_nil_or_concat after with rfl | ⟨front, x, rfl⟩
    · exact absurd (congrArg Prod.fst (List.append_singleton_inj.1 heq).2) h
    · rw [List.concat_eq_append, ← List.cons_append, ← List.append_assoc] at heq
      exact ⟨before, front, (List.append_singleton_inj.1 heq).1, fun y hy => hafter y (by simp [hy])⟩
  · rintro ⟨before, after, rfl, hafter⟩
    refine ⟨before, after ++ [e], by simp, fun y hy => ?_⟩
    rcases List.mem_append.1 hy with hy | hy
    · exact hafter y hy
    · rw [List.mem_singleton.1 hy]
      exact h

/-- **What is found under a text** is the value of its last entry, by induction from the end of the row. -/
theorem lookup_entriesOf : lookup (.text k) (entriesOf es) = some v ↔ IsLast es k v := by
  induction es using List.reverseRecOn with
  | nil => exact iff_of_false (fun h => nomatch h) not_isLast_nil
  | append_singleton es e ih =>
    obtain ⟨x, w⟩ := e
    have hconcat : entriesOf (es ++ [(x, w)]) = insertEntry x w (entriesOf es) := by
      unfold entriesOf
      rw [List.foldl_append]
      rfl
    rw [hconcat]
    by_cases hx : x = .text k
    · rw [hx, lookup_insertEntry_self, isLast_concat_self, Option.some.injEq]
    · rw [lookup_insertEntry_of_ne hx, isLast_concat_of_ne hx, ih]

end Value

/-! ## Objects -/

namespace Json

/-- What stands between the brace that opens an object and the end of the text: the members, in the order in which
they stand, the brace that closes it, and some more. The reader goes at most `fuel` calls deep. -/
inductive HasMembers (fuel : Nat) (t : Text) : List (Value × Value) → Text → Prop
  | none {c : CodePoint} {rest : Text} (ht : skipSpace t = c :: rest) (hc : c.val = 0x7D) : HasMembers fuel t [] rest
  | some {c : CodePoint} {u rest : Text} {es : List (Value × Value)} (ht : skipSpace t = c :: u) (hc : c.val ≠ 0x7D)
      (hes : readEntries fuel (c :: u) = .ok (es, rest)) : HasMembers fuel t es rest

/-- A text that writes an object, with blanks around it, and the members in the order in which they stand. -/
def IsObject (t : Text) (es : List (Value × Value)) : Prop :=
  ∃ c u rest, skipSpace t = c :: u ∧ c.val = 0x7B ∧ HasMembers (2 * t.length + 1) u es rest ∧ skipSpace rest = []

variable {t rest : Text} {entries : List (Value × Value)} {bs : Bytes}

/-- A number is no dictionary. -/
theorem not_dict_of_readNumber : readNumber t ≠ .ok (.dict entries, rest) := by
  intro h
  unfold readNumber at h
  dsimp only at h
  split at h
  · cases h
  split at h
  · split at h
    · cases h
    · cases h
  · cases h

/-- No word stands for a dictionary. -/
theorem not_dict_of_takeConstant : takeConstant t ≠ some (.dict entries, rest) := by
  intro h
  obtain ⟨c, hc, heq⟩ := Option.map_eq_some_iff.1 h
  have hmem := List.mem_of_find?_eq_some hc
  have hconstants : ∀ c ∈ constants, ∀ entries, c.2 ≠ .dict entries := by
    simp [constants]
  exact hconstants c hmem entries (congrArg Prod.fst heq)

/-- A dictionary begins with a brace, and has what remains of the members behind it. -/
theorem of_readValue_dict {fuel : Nat} (h : readValue (fuel + 1) t = .ok (.dict entries, rest)) :
    ∃ c u es, t = c :: u ∧ c.val = 0x7B ∧ HasMembers fuel u es rest ∧ entries = Value.entriesOf es := by
  unfold readValue at h
  split at h
  · cases h
  rename_i c u
  split at h
  · -- a text
    obtain ⟨_, -, h⟩ := map_eq_ok.1 h
    cases h
  split at h
  · rename_i hc
    split at h
    · cases h
    rename_i d v hu
    split at h
    · rename_i hd
      obtain ⟨hdict, hrest⟩ := Prod.mk.inj (Except.ok.inj h)
      obtain rfl := Value.dict.inj hdict
      obtain rfl := hrest
      exact ⟨c, u, [], rfl, hc, .none hu hd, rfl⟩
    · rename_i hd
      obtain ⟨⟨es, rest'⟩, hes, h⟩ := map_eq_ok.1 h
      obtain ⟨hdict, hrest⟩ := Prod.mk.inj h
      obtain rfl := Value.dict.inj hdict
      obtain rfl := hrest
      exact ⟨c, u, es, rfl, hc, .some hu hd hes, rfl⟩
  split at h
  · -- a list
    split at h
    · cases h
    split at h
    · cases h
    · obtain ⟨_, -, h⟩ := map_eq_ok.1 h
      cases h
  split at h
  · rename_i r hr
    rw [Except.ok.inj h] at hr
    exact absurd hr not_dict_of_takeConstant
  · exact absurd h not_dict_of_readNumber

/-- Behind a brace, members are read into a dictionary. -/
theorem readValue_of_members {fuel : Nat} {c : CodePoint} {u : Text} {es : List (Value × Value)} (hc : c.val = 0x7B)
    (h : HasMembers fuel u es rest) : readValue (fuel + 1) (c :: u) = .ok (.dict (Value.entriesOf es), rest) := by
  have hquote : c ≠ .doubleQuote := by
    rintro rfl
    exact absurd hc (by decide)
  cases h with
  | none hu hd =>
    rw [readValue, if_neg hquote, if_pos hc, hu]
    simp only [if_pos hd]
    rfl
  | some hu hd hes =>
    rw [readValue, if_neg hquote, if_pos hc, hu]
    simp only [if_neg hd, hes]
    rfl

/-- **A dictionary is read exactly off an object**, and has what remains of its members. -/
theorem readWhole_eq_dict_iff :
    readWhole t = .ok (.dict entries) ↔ ∃ es, IsObject t es ∧ entries = Value.entriesOf es := by
  constructor
  · intro h
    obtain ⟨⟨v, rest⟩, hv, h⟩ := bind_eq_ok.1 h
    dsimp only at h
    split at h
    · rename_i hrest
      obtain rfl := Except.ok.inj h
      obtain ⟨c, u, es, ht, hc, hes, hentries⟩ := of_readValue_dict hv
      exact ⟨es, ⟨c, u, rest, ht, hc, hes, hrest⟩, hentries⟩
    · cases h
  · rintro ⟨es, ⟨c, u, rest, ht, hc, hes, hrest⟩, rfl⟩
    have hv := readValue_of_members hc hes
    rw [← ht] at hv
    refine bind_eq_ok.2 ⟨_, hv, ?_⟩
    dsimp only
    rw [hrest]

theorem readDecoded_eq_ok_iff {v : Value} : readDecoded t = .ok v ↔ readWhole t = .ok v := by
  unfold readDecoded
  cases readWhole t with
  | ok w => rw [Except.ok.injEq, Except.ok.injEq]
  | error stop => cases stop <;> exact iff_of_false (fun h => nomatch h) (fun h => nomatch h)

/-- What is decoded is read off the text of the bytes. -/
theorem decode_eq_ok_iff {v : Value} :
    decode (.bytes bs) none = .ok v ↔ ∃ t, decodeDetected bs = .ok t ∧ readWhole t = .ok v := by
  have hread : readBytes bs = .ok v ↔ ∃ t, decodeDetected bs = .ok t ∧ readWhole t = .ok v := by
    unfold readBytes
    cases decodeDetected bs with
    | error e => exact iff_of_false (fun h => nomatch h) fun ⟨_, h, _⟩ => nomatch h
    | ok t => simp [readDecoded_eq_ok_iff]
  have hbytes : read (.bytes bs) = readBytes bs := rfl
  rw [← hread, decode, hbytes]
  cases readBytes bs with
  | error why => simp only [reduceCtorEq]
  | ok w => simp only [Except.ok.injEq]

/-- What cannot be encoded is an error about what was to be written. -/
theorem family_of_encode {v : Value} {e : Error} (h : encode v = .error e) : e.family? = some .serialization := by
  unfold encode at h
  split at h
  · cases h
  · obtain rfl := Except.error.inj h
    rfl

/-- What cannot be decoded is an error about what was read. -/
theorem family_of_decode {e : Error} (h : decode (.bytes bs) none = .error e) : e.family? = some .serialization := by
  unfold decode at h
  split at h
  · obtain rfl := Except.error.inj h
    rfl
  · cases h

end Json

/-! ## Names of children -/

namespace Session

/-- Bytes that name a child: they write an object whose last member called `name` is a text, not an empty one. -/
def NamesChild (body : Bytes) (child : Text) : Prop :=
  ∃ t es, Json.decodeDetected body = .ok t ∧ Json.IsObject t es ∧ Value.IsLast es "name" (.text child) ∧ child ≠ []

theorem childName?_eq_some_iff {v : Value} {child : Text} : childName? v = some child ↔
    ∃ entries, v = .dict entries ∧ Value.lookup (.text "name") entries = some (.text child) ∧ child ≠ [] := by
  constructor
  · intro h
    unfold childName? at h
    split at h
    · rename_i entries
      split at h
      · rename_i c rest hlookup
        obtain rfl := Option.some.inj h
        exact ⟨entries, rfl, hlookup, List.cons_ne_nil c rest⟩
      · cases h
    · cases h
  · rintro ⟨entries, rfl, hlookup, hne⟩
    obtain ⟨c, rest, rfl⟩ := List.exists_cons_of_ne_nil hne
    simp only [childName?, hlookup]

/-- **Bytes name a child** exactly if they are decoded to a value that does. -/
theorem namesChild_iff {body : Bytes} {child : Text} : NamesChild body child ↔
    ∃ v, Json.decode (.bytes body) none = .ok v ∧ childName? v = some child := by
  constructor
  · rintro ⟨t, es, ht, hes, hlast, hne⟩
    refine ⟨.dict (Value.entriesOf es), Json.decode_eq_ok_iff.2 ⟨t, ht, Json.readWhole_eq_dict_iff.2 ⟨es, hes, rfl⟩⟩, ?_⟩
    exact childName?_eq_some_iff.2 ⟨_, rfl, Value.lookup_entriesOf.2 hlast, hne⟩
  · rintro ⟨v, hv, hchild⟩
    obtain ⟨entries, rfl, hlookup, hne⟩ := childName?_eq_some_iff.1 hchild
    obtain ⟨t, ht, hread⟩ := Json.decode_eq_ok_iff.1 hv
    obtain ⟨es, hes, rfl⟩ := Json.readWhole_eq_dict_iff.1 hread
    exact ⟨t, es, ht, hes, Value.lookup_entriesOf.1 hlookup, hne⟩

end Session

end RemoteTree
