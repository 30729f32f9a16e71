import RemoteTree.Proofs.Url.Host

/-!
# The authority of a target

The authority that a target gets has a user part with no mark but colons, a host that is a name or stands
in brackets, and a port that is one. Requoting may change the user and the host, but not what is read as
the port.

* `IsPort`: what stands behind the host of a target.
* `Authority.Sendable`: what holds of the authority of a target.
* `sendable_of_readAuthority`: an authority that can be read is one.
* `Authority.Sendable.port_of_requoted`: **its port can still be read when it has been requoted**.
-/

namespace RemoteTree.Url

/-! ## Ports -/

/-- A port that is read is one. -/
theorem le_of_readPort {t : Text} {n : Nat} (h : readPort t = some (some n)) : n ≤ 65535 := by
  unfold readPort at h
  dsimp only at h
  split at h
  · cases h
  split at h
  · cases h
  split at h
  · rename_i hn
    obtain rfl := Option.some.inj (Option.some.inj h)
    exact hn
  · cases h

/-- What stands behind the host of a target: nothing, or a colon and a port. -/
inductive IsPort : Text → Prop where
  | none : IsPort []
  | some {n : Nat} (h : n ≤ 65535) : IsPort (CodePoint.ofChar ':' :: Text.ofNat n)

theorem isUrlChar_of_isDigit {c : CodePoint} (h : c.isDigit = true) : Escape.isUrlChar c = true := by
  simp [Escape.isUrlChar, Escape.isUnreserved, CodePoint.isLetterOrDigit, h]

theorem IsPort.urlChars {t : Text} (h : IsPort t) : ∀ c ∈ t, Escape.isUrlChar c = true := by
  cases h with
  | none => simp
  | some _ =>
    intro c hc
    rcases List.mem_cons.1 hc with rfl | hc
    · decide
    · exact isUrlChar_of_isDigit (Text.isDigit_of_mem_ofNat hc)

/-- A port has no mark but the colon in front of it. -/
theorem IsPort.eq_colon {t : Text} (h : IsPort t) {c : CodePoint} (hc : c ∈ t) (hm : isMark c = true) :
    c = ':' := by
  cases h with
  | none => cases hc
  | some _ =>
    rcases List.mem_cons.1 hc with hc | hc
    · exact hc
    · have := Text.isDigit_of_mem_ofNat hc
      rw [not_mark_of_letterOrDigit (by simp [CodePoint.isLetterOrDigit, this])] at hm
      cases hm

/-! ## Authorities -/

/-- What holds of the authority of a target. -/
structure Authority.Sendable (a : Authority) : Prop where
  user : ∀ c ∈ a.user, isMark c = true → c = ':'
  host : IsHost a.host
  hostful : a.host ≠ []
  port : ∀ n, a.port = some n → n ≤ 65535

/-- A host that is read is one of a target, and so is its port. -/
theorem isHost_of_readHost {t host : Text} {port : Option Nat} (h : readHost t = some (host, port))
    (ht : ∀ m ∈ Text.ofString "@/?#", m ∉ t) : IsHost host ∧ ∀ n, port = some n → n ≤ 65535 := by
  unfold readHost at h
  split at h
  · obtain ⟨rfl, rfl⟩ := Prod.mk.inj (Option.some.inj h)
    exact ⟨.name (by simp), fun n hn => by cases hn⟩
  rename_i c inside
  split at h
  · rcases hcut : Text.cut ']' inside with ⟨address, after⟩
    rw [hcut] at h
    obtain ⟨found, hfound, h⟩ := Option.bind_eq_some_iff.1 h
    obtain ⟨behind, hbehind, h⟩ := Option.bind_eq_some_iff.1 h
    have hhost : IsHost found := by
      -- the address ends at the first closing bracket, so that it has none
      refine isHost_of_bracketed hfound fun m hm hmem => ?_
      rcases List.mem_cons.1 hm with rfl | hm
      · have := Text.not_mem_cut ']' inside
        rw [hcut] at this
        exact this hmem
      · refine ht m hm (List.mem_cons_of_mem _ (Text.mem_of_mem_cut (m := ']') ?_))
        rwa [hcut]
    split at h
    · obtain ⟨rfl, rfl⟩ := Prod.mk.inj (Option.some.inj h)
      exact ⟨hhost, fun n hn => by cases hn⟩
    · split at h
      · obtain ⟨p, hp, h⟩ := Option.bind_eq_some_iff.1 h
        obtain ⟨rfl, rfl⟩ := Prod.mk.inj (Option.some.inj h)
        exact ⟨hhost, fun n hn => le_of_readPort (hn ▸ hp)⟩
      · cases h
  · rcases hcut : Text.cut ':' (c :: inside) with ⟨name, after⟩
    rw [hcut] at h
    obtain ⟨p, hp, h⟩ := Option.bind_eq_some_iff.1 h
    have hport : ∀ n, p = some n → n ≤ 65535 := by
      rintro n rfl
      cases after with
      | none => cases hp
      | some digits => exact le_of_readPort hp
    dsimp only at h
    split at h
    · rename_i hnumeric
      obtain ⟨rfl, rfl⟩ := Prod.mk.inj (Option.some.inj h)
      exact ⟨.name (not_mark_of_isNumeric hnumeric), hport⟩
    · obtain ⟨found, hfound, h⟩ := Option.bind_eq_some_iff.1 h
      obtain ⟨rfl, rfl⟩ := Prod.mk.inj (Option.some.inj h)
      exact ⟨.name (not_mark_of_hostName hfound), hport⟩

/-- The marks that may stand in a user part are colons. -/
theorem eq_colon_of_allowedInUser {c : CodePoint} (h : Escape.allowedInUser c = true)
    (hm : isMark c = true) : c = ':' := by
  have := forall_mark (p := fun m => !Escape.allowedInUser m || m == ':') hm (by decide)
  simpa [h] using this

/-- An authority without the characters that end one is that of a target if it can be read. -/
theorem sendable_of_readAuthority {t : Text} {a : Authority} (h : readAuthority t = .ok a)
    (ht : ∀ c ∈ t, endsTarget c = false) : a.Sendable := by
  -- behind the last `@` there is no other one, and what ends an authority is not in it
  have hnot : ∀ m ∈ Text.ofString "@/?#", m ∉ (t.cutLast '@').2 := by
    have hall : ∀ m ∈ Text.ofString "@/?#", m = '@' ∨ endsTarget m = true := by decide
    intro m hm hmem
    obtain ⟨hmt, hat⟩ := Text.cutLast_snd hmem
    rcases hall m hm with rfl | hends
    · exact hat rfl
    · rw [ht m hmt] at hends
      cases hends
  unfold readAuthority at h
  dsimp only at h
  split at h
  · cases h
  rename_i host port hread
  split at h
  · cases h
  rename_i hhost
  split at h
  · cases h
  obtain rfl := Except.ok.inj h
  obtain ⟨hh, hp⟩ := isHost_of_readHost hread hnot
  refine ⟨fun c hc hm => ?_, hh, fun he => hhost (List.isEmpty_iff.2 he), hp⟩
  rcases Escape.mem_component hc with hc | ⟨b, hb⟩
  · exact eq_colon_of_allowedInUser hc hm
  · rw [Escape.not_mark_of_mem_ofByte hb] at hm
    cases hm

/-! ## Requoted authorities -/

theorem IsHost.not_mem {t : Text} (h : IsHost t) {m : CodePoint} (hm : m ∈ Text.ofString "@/?#") :
    m ∉ t := by
  have hmark : ∀ m ∈ Text.ofString "@/?#", isMark m = true := by decide
  intro hmem
  cases h with
  | name h =>
    have := hmark m hm
    rw [h m hmem] at this
    cases this
  | bracketed h =>
    rcases List.mem_cons.1 hmem with rfl | hmem
    · revert hm
      decide
    rcases List.mem_append.1 hmem with hmem | hmem
    · exact h m (List.mem_cons_of_mem _ hm) hmem
    · rw [List.mem_singleton.1 hmem] at hm
      revert hm
      decide

theorem IsPort.not_mem {t : Text} (h : IsPort t) {m : CodePoint} (hm : isMark m = true)
    (hne : m ≠ ':') : m ∉ t :=
  fun hmem => hne (h.eq_colon hmem hm)

/-- Behind a host that is requoted the same port is read. -/
theorem hostInfo_of_requoted {host behind : Text} (hh : IsHost host) (hp : IsPort behind) {p : Parts}
    (hr : Requoted (host ++ behind) (hostAndPort p.authority)) : p.hostInfo.2 = behind.drop 1 := by
  unfold Parts.hostInfo
  dsimp only
  generalize hostAndPort p.authority = info at hr ⊢
  cases hh with
  | bracketed ht =>
    rename_i t
    rw [List.cons_append, List.append_assoc, List.singleton_append] at hr
    -- the opening bracket stays in front, and the first closing one behind it is that of the host
    obtain ⟨y, rfl, hy⟩ := Requoted.split_of_urlChars (x := []) (by decide) (by simp) hr
    obtain ⟨t', b, rfl, htt, hbb⟩ := hy.split (by decide)
    obtain rfl := hbb.eq_of_urlChars hp.urlChars
    have hclose : CodePoint.ofChar ']' ∉ t' :=
      htt.not_mem (by decide) (ht _ (by decide))
    rw [List.nil_append, show Text.cut '[' (CodePoint.ofChar '[' :: (t' ++ CodePoint.ofChar ']' :: b)) =
      ([], some (t' ++ CodePoint.ofChar ']' :: b)) from rfl]
    simp only [Text.cut_append hclose, Option.getD_some]
    cases hp with
    | none => rfl
    | some _ => rfl
  | name ht =>
    have hopen : CodePoint.ofChar '[' ∉ info := by
      refine hr.not_mem (by decide) fun hmem => ?_
      rcases List.mem_append.1 hmem with hmem | hmem
      · have := ht _ hmem
        revert this
        decide
      · exact hp.not_mem (by decide) (by decide) hmem
    have hcolon : CodePoint.ofChar ':' ∉ host := fun hmem => by
      have := ht _ hmem
      revert this
      decide
    rw [Text.cut_of_not_mem hopen]
    -- a name has no colon, so that the first one, if there is one, is that of the port
    cases hp with
    | none =>
      rw [List.append_nil] at hr
      rw [Text.cut_of_not_mem (hr.not_mem (by decide) hcolon)]
      rfl
    | some hn =>
      obtain ⟨h', y, rfl, hhh, hy⟩ := hr.split (by decide)
      obtain rfl := hy.eq_of_urlChars fun c hc => isUrlChar_of_isDigit (Text.isDigit_of_mem_ofNat hc)
      rw [Text.cut_append (hhh.not_mem (by decide) hcolon)]
      rfl

/-- A port that is written down can be read. -/
theorem port_of_digits {p : Parts} {behind : Text} (hp : IsPort behind)
    (h : p.hostInfo.2 = behind.drop 1) : ∃ port, p.port = .ok port := by
  unfold Parts.port
  rw [h]
  cases hp with
  | none => exact ⟨none, rfl⟩
  | @some n hn =>
    rw [List.drop_one, List.tail_cons]
    dsimp only
    split
    · exact ⟨none, rfl⟩
    have hdigits : (Text.ofNat n).all CodePoint.isDigit = true :=
      List.all_eq_true.2 fun c hc => Text.isDigit_of_mem_ofNat hc
    have hlength : (Text.ofNat n).length ≤ digitLimit := by
      have : (Text.ofNat n).length ≤ 5 :=
        (Text.length_ofNat_le (by decide)).2 (Nat.lt_of_le_of_lt hn (by decide))
      unfold digitLimit
      omega
    rw [hdigits]
    simp only [Bool.not_true, Bool.false_eq_true, if_false, Integer.ofDigits?, if_pos hlength,
      Text.foldl_ofNat]
    rw [if_pos (by omega)]
    exact ⟨_, rfl⟩

namespace Authority

variable {a : Authority}

/-- What stands behind the host. -/
def behind (a : Authority) : Text :=
  match a.port with
  | some n => Text.when (n != 0) (":" ++ Text.ofNat n)
  | none => []

theorem text_eq (a : Authority) :
    a.text = Text.when (!a.user.isEmpty) (a.user ++ "@") ++ (a.host ++ a.behind) :=
  List.append_assoc _ _ _

theorem Sendable.isPort (h : a.Sendable) : IsPort a.behind := by
  unfold behind
  cases hp : a.port with
  | none => exact .none
  | some n =>
    dsimp only
    unfold Text.when
    split
    · exact .some (h.port n hp)
    · exact .none

theorem Sendable.not_mem_host (h : a.Sendable) {m : CodePoint} (hm : m ∈ Text.ofString "@/?#") :
    m ∉ a.host ++ a.behind := by
  have hmark : ∀ m ∈ Text.ofString "@/?#", isMark m = true ∧ m ≠ ':' := by decide
  intro hmem
  rcases List.mem_append.1 hmem with hmem | hmem
  · exact h.host.not_mem hm hmem
  · exact h.isPort.not_mem (hmark m hm).1 (hmark m hm).2 hmem

/-- Nothing in the authority of a target ends one. -/
theorem Sendable.not_mem (h : a.Sendable) {m : CodePoint} (hm : m ∈ Text.ofString "/?#") :
    m ∉ a.text := by
  have hmark : ∀ m ∈ Text.ofString "/?#", isMark m = true ∧ m ≠ ':' ∧ m ≠ '@' := by decide
  obtain ⟨hmark, hcolon, hat⟩ := hmark m hm
  rw [text_eq]
  intro hmem
  rcases List.mem_append.1 hmem with hmem | hmem
  · unfold Text.when at hmem
    split at hmem
    · rcases List.mem_append.1 hmem with hmem | hmem
      · exact hcolon (h.user m hmem hmark)
      · exact hat (List.mem_singleton.1 hmem)
    · cases hmem
  · exact h.not_mem_host (List.mem_cons_of_mem _ hm) hmem

/-- Requoting keeps the user and the host apart. -/
theorem Sendable.hostAndPort_of_requoted (h : a.Sendable) {u : Text} (hr : Requoted a.text u) :
    Requoted (a.host ++ a.behind) (hostAndPort u) := by
  have hat := h.not_mem_host (m := '@') (by decide)
  rw [text_eq] at hr
  unfold Text.when at hr
  unfold hostAndPort
  split at hr
  · rw [List.append_assoc] at hr
    obtain ⟨user, rest, rfl, -, hrest⟩ := hr.split (m := '@') (by decide)
    rwa [Text.cutLast_append (hrest.not_mem (by decide) hat)]
  · rwa [Text.cutLast_of_not_mem (hr.not_mem (by decide) hat)]

/-- **The port of a target can still be read when its authority has been requoted.** -/
theorem Sendable.port_of_requoted (h : a.Sendable) {p : Parts} (hr : Requoted a.text p.authority) :
    ∃ port, p.port = .ok port :=
  port_of_digits h.isPort (hostInfo_of_requoted h.host h.isPort (h.hostAndPort_of_requoted hr))

end Authority

end RemoteTree.Url
