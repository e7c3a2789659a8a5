import Devlegate.StatusAttempt
import Devlegate.Lib.Loops

namespace Devlegate

open JsonText Looking

/-!
# A status snapshot is of one moment

An attempt that does not give up has seen everything twice.  What does not come back to an earlier
value has then been the same between the two passes, and the tickets were read in between.

* `lineOctets_inj`: the text behind the fingerprint of the ticket files determines its lines.
* `Write`: what others may do between two looks.
* `entry_steady`, `observeGit_steady`, `observeControl_steady`: what both passes saw stood still
  between them.
* `collectStatusAttempt_atOneMoment`: if no answer of Git comes back to an earlier one, a snapshot is
  made of what was there at one moment.
* `commit_tearsSnapshot`: the answer of `git status` does come back when an edited ticket is
  committed, and then a snapshot may be of no moment.
-/

/-! ### The text behind the fingerprint -/

/-- A text without the characters that separate the parts of a line. -/
def Separable (s : List Char) : Prop := '\n' ∉ s ∧ '\x00' ∉ s ∧ '/' ∉ s

instance (s : List Char) : Decidable (Separable s) := inferInstanceAs (Decidable (_ ∧ _ ∧ _))

theorem separable_word (state : TicketState) : Separable state.word.toList := by
  cases state <;> decide

theorem separable_id {id : List Char} (h : isTicketId id = true) : Separable id := by
  have hplain : ∀ c ∈ id, (isTicketId.isAsciiAlphanumeric c || c = '_' || c = '-') = true := by
    cases id with
    | nil => exact absurd h nofun
    | cons c rest =>
      obtain ⟨hfirst, hrest⟩ := Bool.and_eq_true_iff.mp h
      intro d hd
      rcases List.mem_cons.mp hd with rfl | hd
      · simp [hfirst]
      · exact List.all_eq_true.mp hrest d hd
  refine ⟨fun hc => ?_, fun hc => ?_, fun hc => ?_⟩ <;>
    exact absurd (hplain _ hc) (by decide)

/-- The characters of a ticket id, and those of the extension. -/
theorem separable_name {name : String} (h : (canonicalTicketId name).isSome) :
    Separable name.toList := by
  have hname : name.toList.drop (name.toList.length - 3) = ".md".toList
      ∧ isTicketId (name.toList.take (name.toList.length - 3)) = true := by
    by_contra hnot
    have hnone : canonicalTicketId name = none := by
      unfold canonicalTicketId
      rw [← decide_eq_true_iff (p := _ = ".md".toList), ← Bool.and_eq_true] at hnot
      exact if_neg hnot
    rw [hnone] at h
    exact absurd h nofun
  have hext : Separable ".md".toList := by decide
  have hid := separable_id hname.2
  rw [← List.take_append_drop (name.toList.length - 3) name.toList, hname.1]
  simp only [Separable, List.mem_append, not_or] at hid hext ⊢
  exact ⟨⟨hid.1, hext.1⟩, ⟨hid.2.1, hext.2.1⟩, ⟨hid.2.2, hext.2.2⟩⟩

/-- The first separators of equal texts are at the same place. -/
theorem split_unique {c d : Char} {xs xs' ys ys' : List Char} (hc : c ∉ xs') (hd : d ∉ xs)
    (heq : xs ++ c :: ys = xs' ++ d :: ys') : xs = xs' ∧ c = d ∧ ys = ys' := by
  induction xs generalizing xs' with
  | nil =>
    cases xs' with
    | nil =>
      obtain ⟨hhead, htail⟩ := List.cons.inj heq
      exact ⟨rfl, hhead, htail⟩
    | cons x xs' => exact absurd (List.cons.inj heq).1 (by rintro rfl; exact hc List.mem_cons_self)
  | cons x xs ih =>
    cases xs' with
    | nil => exact absurd (List.cons.inj heq).1 (by rintro rfl; exact hd List.mem_cons_self)
    | cons x' xs' =>
      obtain ⟨rfl, htail⟩ := List.cons.inj heq
      obtain ⟨rfl, hrest⟩ := ih (fun h => hc (List.mem_cons_of_mem _ h))
        (fun h => hd (List.mem_cons_of_mem _ h)) htail
      exact ⟨rfl, hrest⟩

namespace FingerprintLine

/-- The parts of a line keep off the separators; a digest only off the end of the line. -/
def Proper : FingerprintLine → Prop
  | .folder _ kind => Separable kind.toList
  | .ticket _ name kind digest =>
    Separable name.toList ∧ Separable kind.toList ∧ '\n' ∉ digest.toList

/-- A line without its end. -/
def body : FingerprintLine → List Char
  | .folder state kind => state.word.toList ++ '\x00' :: kind.toList
  | .ticket state name kind digest =>
    state.word.toList ++ '/' :: (name.toList ++ '\x00' :: (kind.toList ++ '\x00' :: digest.toList))

theorem chars_eq (line : FingerprintLine) : line.chars = line.body ++ ['\n'] := by
  cases line with
  | folder state kind => rfl
  | ticket state name kind digest => simp [chars, body]

theorem not_mem_body {line : FingerprintLine} (h : line.Proper) : '\n' ∉ line.body := by
  cases line with
  | folder state kind =>
    have hword := (separable_word state).1
    simp [body, hword, h.1]
  | ticket state name kind digest =>
    have hword := (separable_word state).1
    simp [body, hword, h.1.1, h.2.1.1, h.2.2]

theorem word_inj {state state' : TicketState} (h : state.word.toList = state'.word.toList) :
    state = state' := by
  revert h
  cases state <;> cases state' <;> decide

/-- A line can be read back. -/
theorem body_inj {line line' : FingerprintLine} (h : line.Proper) (h' : line'.Proper)
    (heq : line.body = line'.body) : line = line' := by
  cases line with
  | folder state kind =>
    cases line' with
    | folder state' kind' =>
      obtain ⟨hword, -, hkind⟩ :=
        split_unique (separable_word state').2.1 (separable_word state).2.1 heq
      rw [word_inj hword, String.toList_injective hkind]
    | ticket state' name kind' digest =>
      have hsep := split_unique (separable_word state').2.1 (separable_word state).2.2 heq
      exact absurd hsep.2.1 (by decide)
  | ticket state name kind digest =>
    cases line' with
    | folder state' kind' =>
      have hsep := split_unique (separable_word state').2.2 (separable_word state).2.1 heq
      exact absurd hsep.2.1 (by decide)
    | ticket state' name' kind' digest' =>
      obtain ⟨hword, -, hrest⟩ :=
        split_unique (separable_word state').2.2 (separable_word state).2.2 heq
      obtain ⟨hname, -, hrest⟩ := split_unique h'.1.2.1 h.1.2.1 hrest
      obtain ⟨hkind, -, hdigest⟩ := split_unique h'.2.1.2.1 h.2.1.2.1 hrest
      rw [word_inj hword, String.toList_injective hname, String.toList_injective hkind,
        String.toList_injective hdigest]

end FingerprintLine

/-- **Text.** The text behind the fingerprint determines the lines. -/
theorem chars_inj {lines lines' : List FingerprintLine} (h : ∀ line ∈ lines, line.Proper)
    (h' : ∀ line ∈ lines', line.Proper)
    (heq : lines.flatMap (·.chars) = lines'.flatMap (·.chars)) : lines = lines' := by
  induction lines generalizing lines' with
  | nil =>
    cases lines' with
    | nil => rfl
    | cons line' lines' =>
      rw [List.flatMap_cons, FingerprintLine.chars_eq] at heq
      simp at heq
  | cons line lines ih =>
    cases lines' with
    | nil =>
      rw [List.flatMap_cons, FingerprintLine.chars_eq] at heq
      simp at heq
    | cons line' lines' =>
      rw [List.flatMap_cons, List.flatMap_cons, FingerprintLine.chars_eq, FingerprintLine.chars_eq,
        List.append_assoc, List.append_assoc] at heq
      have hline := h line List.mem_cons_self
      have hline' := h' line' List.mem_cons_self
      obtain ⟨hbody, -, hrest⟩ := split_unique (FingerprintLine.not_mem_body hline')
        (FingerprintLine.not_mem_body hline) heq
      rw [FingerprintLine.body_inj hline hline' hbody,
        ih (fun l hl => h l (List.mem_cons_of_mem _ hl))
          (fun l hl => h' l (List.mem_cons_of_mem _ hl)) hrest]

theorem utf8_inj {text text' : String}
    (h : text.toUTF8.data.toList = text'.toUTF8.data.toList) : text = text' :=
  String.toByteArray_inj.mp (ByteArray.ext (Array.toList_inj.mp h))

theorem lineOctets_inj {lines lines' : List FingerprintLine} (h : ∀ line ∈ lines, line.Proper)
    (h' : ∀ line ∈ lines', line.Proper) (heq : lineOctets lines = lineOctets lines') :
    lines = lines' := by
  exact chars_inj h h' (String.ofList_injective (utf8_inj heq))

/-- The state that a line is about. -/
def FingerprintLine.about : FingerprintLine → TicketState
  | .folder state _ => state
  | .ticket state _ _ _ => state

/-- What stands on the right of a correspondence has its counterpart on the left. -/
theorem exists_left_of_mem {α β : Type} {R : α → β → Prop} {xs : List α} {ys : List β}
    (h : List.Forall₂ R xs ys) {y : β} (hy : y ∈ ys) : ∃ x ∈ xs, R x y := by
  induction h with
  | nil => exact absurd hy List.not_mem_nil
  | cons hxy _ ih =>
    rcases List.mem_cons.mp hy with rfl | hy
    · exact ⟨_, List.mem_cons_self, hxy⟩
    · obtain ⟨x, hx, hR⟩ := ih hy
      exact ⟨x, List.mem_cons_of_mem _ hx, hR⟩

/-- What stands on the left of two correspondences with one list has one counterpart in it. -/
theorem exists_right_of_mem {α β : Type} {R R' : α → β → Prop} {xs : List α} {ys : List β}
    (h : List.Forall₂ R xs ys) (h' : List.Forall₂ R' xs ys) {x : α} (hx : x ∈ xs) :
    ∃ y, R x y ∧ R' x y := by
  induction h with
  | nil => exact absurd hx List.not_mem_nil
  | cons hxy _ ih =>
    cases h' with
    | cons hxy' hrest =>
      rcases List.mem_cons.mp hx with rfl | hx
      · exact ⟨_, hxy, hxy'⟩
      · exact ih hrest hx

/-! ### One pass over the ticket files -/

section Pass

variable {files : ℕ → WorkflowFiles} {s e : ℕ}

theorem entry_of_readBytes {fs : WorkflowFiles} {state : TicketState} {name : String}
    {raw : List UInt8} (h : fs.readBytes state name = .ok raw) :
    fs.entry state name = some (.file raw) := by
  unfold WorkflowFiles.readBytes at h
  split at h
  · next hentry => rw [hentry, Except.ok.inj h]
  · exact absurd h nofun
  · exact absurd h nofun
  · exact absurd h nofun

theorem entry_of_not_isFile {fs : WorkflowFiles} {state : TicketState} {name : String}
    (h : fs.isFile state name = false) (raw : List UInt8) :
    fs.entry state name ≠ some (.file raw) := by
  intro hentry
  simp [WorkflowFiles.isFile, hentry] at h

theorem folder_of_iterdir {fs : WorkflowFiles} {state : TicketState} {names : List String}
    (h : fs.iterdir state = .ok names) :
    ∃ folder, fs state = .directory folder ∧ names = folder.entries.map (·.1) := by
  unfold WorkflowFiles.iterdir at h
  split at h
  · next folder hfolder => exact ⟨folder, hfolder, (Except.ok.inj h).symm⟩
  · exact absurd h nofun
  · exact absurd h nofun

theorem separable_of_folderKind {state : TicketState} {kind : String}
    (h : (folderKind state).Returns files s kind e) : Separable kind.toList := by
  obtain ⟨dir, m, hdir, h⟩ := Attempt.returns_bind.mp h
  split at h
  · rw [(Attempt.returns_pure.mp h).1]
    decide
  · obtain ⟨found, m', hfound, h⟩ := Attempt.returns_bind.mp h
    split at h
    · rw [(Attempt.returns_pure.mp h).1]
      decide
    · rw [(Attempt.returns_pure.mp h).1]
      decide

variable [Sha256]

/-- What a line about a name says of the moments of the pass. -/
inductive SawEntry (files : ℕ → WorkflowFiles) (s e : ℕ) (state : TicketState) (name : String)
    (line : FingerprintLine) : Prop
  | symlink (t : ℕ) (hs : s ≤ t) (he : t ≤ e) (h : (files t).entry state name = some .symlink)
    (hline : line = .ticket state name "symlink" "")
  | file (t : ℕ) (hs : s ≤ t) (he : t ≤ e) (raw : List UInt8)
    (h : (files t).entry state name = some (.file raw))
    (hline : line = .ticket state name "file" (Sha256.hexdigest raw))
  | other (t : ℕ) (hs : s ≤ t) (he : t ≤ e)
    (h : ∀ raw, (files t).entry state name ≠ some (.file raw))
    (hline : line = .ticket state name "other" "")

theorem SawEntry.name_eq {state : TicketState} {name : String} {line : FingerprintLine}
    (h : SawEntry files s e state name line) :
    ∃ kind digest, line = .ticket state name kind digest := by
  cases h with
  | symlink _ _ _ _ hline => exact ⟨_, _, hline⟩
  | file _ _ _ _ _ hline => exact ⟨_, _, hline⟩
  | other _ _ _ _ hline => exact ⟨_, _, hline⟩

theorem sawEntry_of_ticketLine {state : TicketState} {name : String} {line : FingerprintLine}
    (h : (ticketLine state name).Returns files s line e) : SawEntry files s e state name line := by
  obtain ⟨link, m, hlink, h⟩ := Attempt.returns_bind.mp h
  obtain ⟨t, hs, he, rfl⟩ := Attempt.returns_view.mp hlink
  split at h
  · next hsymlink =>
    obtain ⟨rfl, hle⟩ := Attempt.returns_pure.mp h
    exact .symlink t hs (he.trans hle) (of_decide_eq_true hsymlink) rfl
  · obtain ⟨file, m', hfile, h⟩ := Attempt.returns_bind.mp h
    obtain ⟨t', hs', he', rfl⟩ := Attempt.returns_view.mp hfile
    split at h
    · obtain ⟨raw, m₁, hraw, h⟩ := Attempt.returns_bind.mp h
      obtain ⟨u, hsu, hue, hread⟩ := Attempt.returns_ask.mp hraw
      obtain ⟨rfl, hle⟩ := Attempt.returns_pure.mp h
      exact .file u (by omega) (by omega) raw (entry_of_readBytes hread) rfl
    · next hfile =>
      obtain ⟨rfl, hle⟩ := Attempt.returns_pure.mp h
      exact .other t' (by omega) (by omega) (entry_of_not_isFile (Bool.eq_false_iff.mpr hfile)) rfl

/-- What the lines of a state say of the moments of the pass; the names are looked at after the
    listing. -/
inductive SawFolder (files : ℕ → WorkflowFiles) (s e : ℕ) (state : TicketState) :
    List FingerprintLine → Prop
  | directory {t : ℕ} {folder : Folder} {kind : String} {tickets : List FingerprintLine}
    (hkind : Separable kind.toList) (hs : s ≤ t) (he : t ≤ e)
    (hfolder : files t state = .directory folder)
    (htickets : List.Forall₂ (SawEntry files t e state) (folder.entries.map (·.1)) tickets) :
    SawFolder files s e state (.folder state kind :: tickets)
  | plain {t : ℕ} {kind : String} (hkind : Separable kind.toList) (hs : s ≤ t) (he : t ≤ e)
    (hplain : (files t).isDir state = false) :
    SawFolder files s e state [.folder state kind]

theorem SawEntry.mono {state : TicketState} {name : String} {line : FingerprintLine} {s' e' : ℕ}
    (h : SawEntry files s' e' state name line) (hs : s ≤ s') (he : e' ≤ e) :
    SawEntry files s e state name line := by
  cases h with
  | symlink t hs' he' h hline => exact .symlink t (hs.trans hs') (he'.trans he) h hline
  | file t hs' he' raw h hline => exact .file t (hs.trans hs') (he'.trans he) raw h hline
  | other t hs' he' h hline => exact .other t (hs.trans hs') (he'.trans he) h hline

theorem SawFolder.mono {state : TicketState} {lines : List FingerprintLine} {s' e' : ℕ}
    (h : SawFolder files s' e' state lines) (hs : s ≤ s') (he : e' ≤ e) :
    SawFolder files s e state lines := by
  cases h with
  | directory hkind hs' he' hfolder htickets =>
    refine .directory hkind (hs.trans hs') (he'.trans he) hfolder (htickets.imp ?_)
    exact fun _ _ h => h.mono (Nat.le_refl _) he
  | plain hkind hs' he' hplain => exact .plain hkind (hs.trans hs') (he'.trans he) hplain

theorem sawFolder_of_folderLines {state : TicketState} {lines : List FingerprintLine}
    (h : (folderLines state).Returns files s lines e) : SawFolder files s e state lines := by
  obtain ⟨kind, m, hkind, h⟩ := Attempt.returns_bind.mp h
  have hm := hkind.le
  have hsep := separable_of_folderKind hkind
  obtain ⟨dir, m', hdir, h⟩ := Attempt.returns_bind.mp h
  obtain ⟨t, hs, he, rfl⟩ := Attempt.returns_view.mp hdir
  split at h
  · obtain ⟨names, m₁, hnames, h⟩ := Attempt.returns_bind.mp h
    obtain ⟨u, hsu, hue, hiter⟩ := Attempt.returns_ask.mp hnames
    obtain ⟨folder, hfolder, rfl⟩ := folder_of_iterdir hiter
    obtain ⟨tickets, m₂, htickets, h⟩ := Attempt.returns_bind.mp h
    obtain ⟨rfl, hle⟩ := Attempt.returns_pure.mp h
    have hm₂ := htickets.le
    refine .directory hsep (by omega) (by omega) hfolder ?_
    refine (Attempt.returns_mapM htickets).imp ?_
    rintro name line ⟨s', e', hs', he', hline⟩
    exact (sawEntry_of_ticketLine hline).mono (by omega) (by omega)
  · next hplain =>
    obtain ⟨rfl, hle⟩ := Attempt.returns_pure.mp h
    exact .plain hsep (by omega) (by omega) (Bool.eq_false_iff.mpr hplain)

end Pass

/-! ### What others may do -/

/-- A path that is absent or a regular file. -/
def IsRegular (entry : Option WorkflowEntry) : Prop := ∀ e ∈ entry, ∃ raw, e = .file raw

theorem eq_none_of_isRegular {entry : Option WorkflowEntry} (h : IsRegular entry)
    (hfile : ∀ raw, entry ≠ some (.file raw)) : entry = none := by
  cases entry with
  | none => rfl
  | some e =>
    obtain ⟨raw, rfl⟩ := h e rfl
    exact absurd rfl (hfile raw)

/-- One step of the others: the state is replaced, with the next revision, or stays; ticket files
    are written, made or removed; Git may answer anything. -/
structure Write (w w' : StatusWorld) : Prop where
  stored : w'.stored = w.stored
    ∨ ∃ state, w'.stored = some (state, (w.stored.map (·.2)).getD 0 + 1)
  folders : ∀ state, w'.files state = w.files state
    ∨ (w'.files.isDir state = true ∧ w.files.isDir state = true)
  entries : ∀ state name, w'.files.entry state name = w.files.entry state name
    ∨ (IsRegular (w'.files.entry state name) ∧ IsRegular (w.files.entry state name))

section Run

variable {moment : ℕ → StatusWorld}

/-- The directories stay what they are. -/
theorem folder_steady (hwrites : ∀ t, Write (moment t) (moment (t + 1))) (state : TicketState)
    (t : ℕ) : (moment t).files state = (moment 0).files state
      ∨ ((moment t).files.isDir state = true ∧ (moment 0).files.isDir state = true) := by
  induction t with
  | zero => exact .inl rfl
  | succ t ih =>
    rcases (hwrites t).folders state with hsame | ⟨hdir', hdir⟩
    · rcases ih with ih | ih
      · exact .inl (hsame.trans ih)
      · refine .inr ⟨?_, ih.2⟩
        rw [WorkflowFiles.isDir, hsame]
        exact ih.1
    · rcases ih with ih | ih
      · refine .inr ⟨hdir', ?_⟩
        rw [WorkflowFiles.isDir, ← ih]
        exact hdir
      · exact .inr ⟨hdir', ih.2⟩

/-- A link or another thing under a ticket's name stays, and nothing becomes one. -/
theorem irregular_steady (hwrites : ∀ t, Write (moment t) (moment (t + 1))) (state : TicketState)
    (name : String) (t : ℕ) :
    (moment t).files.entry state name = (moment 0).files.entry state name
      ∨ (IsRegular ((moment t).files.entry state name)
        ∧ IsRegular ((moment 0).files.entry state name)) := by
  induction t with
  | zero => exact .inl rfl
  | succ t ih =>
    rcases (hwrites t).entries state name with hsame | ⟨hreg', hreg⟩
    · rw [hsame]
      exact ih
    · rcases ih with ih | ih
      · exact .inr ⟨hreg', ih ▸ hreg⟩
      · exact .inr ⟨hreg', ih.2⟩

/-- The revision of a row grows. -/
theorem revision_mono (hwrites : ∀ t, Write (moment t) (moment (t + 1))) {t u : ℕ} (htu : t ≤ u) :
    (moment u).stored = (moment t).stored
      ∨ ∃ state revision, (moment u).stored = some (state, revision)
        ∧ ((moment t).stored.map (·.2)).getD 0 < revision := by
  obtain ⟨n, rfl⟩ := Nat.exists_eq_add_of_le htu
  induction n with
  | zero => exact .inl rfl
  | succ n ih =>
    have hstep := (hwrites (t + n)).stored
    rcases ih (Nat.le_add_right t n) with ih | ⟨state, revision, ih, hlt⟩
    · rcases hstep with hsame | ⟨state, hnext⟩
      · exact .inl (hsame.trans ih)
      · exact .inr ⟨state, _, hnext, by rw [ih]; omega⟩
    · rcases hstep with hsame | ⟨state', hnext⟩
      · exact .inr ⟨state, revision, hsame.trans ih, hlt⟩
      · refine .inr ⟨state', _, hnext, ?_⟩
        rw [ih, Option.map_some, Option.getD_some]
        omega

/-- Equal tokens of the store have equal revisions. -/
theorem revision_of_token {w w' : StatusWorld} (h : stateToken w = stateToken w') :
    w.stored.map (·.2) = w'.stored.map (·.2) := by
  have hdigits : ∀ {n n' : ℕ}, toString n = toString n' → n = n' := by
    intro n n' hn
    have hlist := congrArg String.toList hn
    rw [Nat.toString_eq_repr, Nat.toString_eq_repr, Nat.toList_repr, Nat.toList_repr] at hlist
    have hread := congrArg (Nat.ofDigitChars 10 · 0) hlist
    exact Nat.ofDigitChars_ten_toDigits.symm.trans (hread.trans Nat.ofDigitChars_ten_toDigits)
  unfold stateToken at h
  cases hw : w.stored with
  | none =>
    cases hw' : w'.stored with
    | none => rfl
    | some row =>
      have hlist := congrArg String.toList h
      simp [hw, hw', String.toList_append] at hlist
  | some row =>
    cases hw' : w'.stored with
    | none =>
      have hlist := congrArg String.toList h
      simp [hw, hw', String.toList_append] at hlist
    | some row' =>
      rw [hw, hw'] at h
      have hlist := congrArg String.toList h
      rw [String.toList_append, String.toList_append] at hlist
      exact congrArg some (hdigits (String.toList_injective (List.append_cancel_left hlist)))

/-- **State.** Equal tokens of the store are of one row, which was there all the time between. -/
theorem stored_steady (hwrites : ∀ t, Write (moment t) (moment (t + 1))) {t u v : ℕ} (htu : t ≤ u)
    (huv : u ≤ v) (htoken : stateToken (moment t) = stateToken (moment v)) :
    (moment u).stored = (moment v).stored := by
  rcases revision_mono hwrites huv with hsame | ⟨state, revision, hv, hlt⟩
  · exact hsame.symm
  · have hrevision := revision_of_token htoken
    rw [hv, Option.map_some] at hrevision
    -- The revision at `v` was there at `t` already, and is more than the one at `u`.
    rcases revision_mono hwrites htu with hsame | ⟨state', revision', hu, hlt'⟩
    · rw [hsame, hrevision, Option.getD_some] at hlt
      omega
    · rw [hu, Option.map_some, Option.getD_some] at hlt
      rw [hrevision, Option.getD_some] at hlt'
      omega

end Run

/-! ### Two passes over the ticket files -/

section Steady

variable [Sha256] {moment : ℕ → StatusWorld} {s e s₁ e₁ s₂ e₂ : ℕ} {state : TicketState}

/-- The tickets of the lines are the names that were listed. -/
theorem names_of_sawEntry {files : ℕ → WorkflowFiles} {names names' : List String}
    {tickets : List FingerprintLine}
    (h : List.Forall₂ (SawEntry files s₁ e₁ state) names tickets)
    (h' : List.Forall₂ (SawEntry files s₂ e₂ state) names' tickets) : names = names' := by
  induction h generalizing names' with
  | nil =>
    cases h'
    rfl
  | cons hline _ ih =>
    cases h' with
    | cons hline' hrest =>
      obtain ⟨_, _, heq⟩ := hline.name_eq
      obtain ⟨_, _, heq'⟩ := hline'.name_eq
      rw [ih hrest, (FingerprintLine.ticket.inj (heq.symm.trans heq')).2.1]

/-- **Entry.** Two passes with the same line for a name have seen all that stood under it in
    between. -/
theorem entry_steady (hwrites : ∀ t, Write (moment t) (moment (t + 1))) {name : String}
    (hforward : NoReturn moment s e fun w => w.files.entry state name)
    (hfree : ∀ {t t' : ℕ} {raw raw' : List UInt8}, s ≤ t → t ≤ e → s ≤ t' → t' ≤ e →
      (moment t).files.entry state name = some (.file raw) →
      (moment t').files.entry state name = some (.file raw') →
      Sha256.hexdigest raw = Sha256.hexdigest raw' → raw = raw')
    {line : FingerprintLine} (hs : s ≤ s₁) (he : e₂ ≤ e)
    (hpresent : ((moment s₂).files.entry state name).isSome)
    (hline : SawEntry (fun t => (moment t).files) s₁ e₁ state name line)
    (hline' : SawEntry (fun t => (moment t).files) s₂ e₂ state name line) {u v : ℕ}
    (hu : e₁ ≤ u) (hu' : u ≤ s₂) (hv : e₁ ≤ v) (hv' : v ≤ s₂) :
    (moment u).files.entry state name = (moment v).files.entry state name := by
  -- Two looks at the same entry, one in each pass.
  have hsame : ∀ {t t' : ℕ}, s₁ ≤ t → t ≤ e₁ → s₂ ≤ t' → t' ≤ e₂ →
      (moment t).files.entry state name = (moment t').files.entry state name →
      (moment u).files.entry state name = (moment v).files.entry state name := by
    intro t t' hst hte hst' hte' heq
    rw [hforward.eq_between u heq (by omega),
      hforward.eq_between v heq (by omega)]
  have hkinds : ∀ {kind kind' digest digest' : String},
      line = .ticket state name kind digest → line = .ticket state name kind' digest' →
      kind = kind' ∧ digest = digest' := fun h h' => (FingerprintLine.ticket.inj (h.symm.trans h')).2.2
  cases hline with
  | symlink t hst hte hentry hl =>
    cases hline' with
    | symlink t' hst' hte' hentry' hl' =>
      exact hsame hst hte hst' hte' (hentry.trans hentry'.symm)
    | file _ _ _ _ _ hl' => exact absurd (hkinds hl hl').1 (by decide)
    | other _ _ _ _ hl' => exact absurd (hkinds hl hl').1 (by decide)
  | file t hst hte raw hentry hl =>
    cases hline' with
    | symlink _ _ _ _ hl' => exact absurd (hkinds hl hl').1 (by decide)
    | file t' hst' hte' raw' hentry' hl' =>
      have hraw := hfree (by omega) (by omega) (by omega) (by omega) hentry hentry'
        (hkinds hl hl').2
      exact hsame hst hte hst' hte' (hentry.trans (hraw ▸ hentry'.symm))
    | other _ _ _ _ hl' => exact absurd (hkinds hl hl').1 (by decide)
  | other t hst hte hentry hl =>
    cases hline' with
    | symlink _ _ _ _ hl' => exact absurd (hkinds hl hl').1 (by decide)
    | file _ _ _ _ _ hl' => exact absurd (hkinds hl hl').1 (by decide)
    | other t' hst' hte' hentry' hl' =>
      have hzero := irregular_steady hwrites state name
      by_cases hregular : IsRegular ((moment 0).files.entry state name)
      · -- Such a path was absent at both looks, so it was absent when it was listed.
        have hnone : ∀ w, (∀ raw, (moment w).files.entry state name ≠ some (.file raw)) →
            (moment w).files.entry state name = none := by
          intro w hw
          rcases hzero w with hsame | ⟨hw', -⟩
          · exact eq_none_of_isRegular (hsame ▸ hregular) hw
          · exact eq_none_of_isRegular hw' hw
        have habsent := hforward.eq_between s₂
          ((hnone t hentry).trans (hnone t' hentry').symm) (by omega)
        rw [habsent, hnone t hentry] at hpresent
        exact absurd hpresent nofun
      · rw [(hzero u).resolve_right fun h => hregular h.2,
          (hzero v).resolve_right fun h => hregular h.2]

omit [Sha256] in
/-- The names that stand in a directory. -/
theorem isSome_entry {fs : WorkflowFiles} {folder : Folder} {name : String}
    (h : fs state = .directory folder) :
    (fs.entry state name).isSome ↔ name ∈ folder.entries.map (·.1) := by
  rw [WorkflowFiles.entry, h]
  simp only [List.lookup_isSome_iff, List.mem_map, beq_iff_eq]
  exact exists_congr fun p => and_congr_right fun _ => eq_comm

omit [Sha256] in
/-- A directory is there at every moment, or the path is the same thing at every moment. -/
theorem directory_or_steady (hwrites : ∀ t, Write (moment t) (moment (t + 1)))
    (state : TicketState) :
    (∀ t, ∃ folder, (moment t).files state = .directory folder)
      ∨ (∀ t, (moment t).files state = (moment 0).files state ∧ (moment t).files.isDir state = false) := by
  have hzero := folder_steady hwrites state
  cases hdir : (moment 0).files.isDir state with
  | true =>
    refine .inl fun t => ?_
    have hdir' : (moment t).files.isDir state = true := by
      rcases hzero t with hsame | ⟨ht, -⟩
      · rw [WorkflowFiles.isDir, hsame]
        exact hdir
      · exact ht
    unfold WorkflowFiles.isDir at hdir'
    split at hdir'
    · next folder hfolder => exact ⟨folder, hfolder⟩
    · exact absurd hdir' nofun
    · exact absurd hdir' nofun
  | false =>
    refine .inr fun t => ?_
    have hsame := (hzero t).resolve_right fun h => absurd (hdir.symm.trans h.2) nofun
    refine ⟨hsame, ?_⟩
    rw [WorkflowFiles.isDir, hsame]
    exact hdir

/-- **Directory.** Two passes with the same lines for a state have seen all that was in its
    directory in between. -/
theorem directory_steady (hwrites : ∀ t, Write (moment t) (moment (t + 1)))
    (hforward : ∀ name, NoReturn moment s e fun w => w.files.entry state name)
    (hfree : ∀ {name : String} {t t' : ℕ} {raw raw' : List UInt8}, s ≤ t → t ≤ e → s ≤ t' → t' ≤ e →
      (moment t).files.entry state name = some (.file raw) →
      (moment t').files.entry state name = some (.file raw') →
      Sha256.hexdigest raw = Sha256.hexdigest raw' → raw = raw')
    {lines : List FingerprintLine} (hs : s ≤ s₁) (he : e₂ ≤ e)
    (hlines : SawFolder (fun t => (moment t).files) s₁ e₁ state lines)
    (hlines' : SawFolder (fun t => (moment t).files) s₂ e₂ state lines) {u v : ℕ}
    (hu : e₁ ≤ u) (hu' : u ≤ s₂) (hv : e₁ ≤ v) (hv' : v ≤ s₂) :
    (moment u).files state = (moment v).files state := by
  -- no write makes or removes the directory, so it is one at every moment or at none
  rcases directory_or_steady hwrites state with hdirs | hplain
  · cases hlines with
    | plain _ _ _ hnot =>
      obtain ⟨folder, hfolder⟩ := hdirs _
      rw [WorkflowFiles.isDir, hfolder] at hnot
      exact absurd hnot nofun
    | @directory t folder _ _ _ hst hte hfolder htickets =>
      cases hlines' with
      | plain _ _ _ hnot =>
        obtain ⟨folder, hfolder⟩ := hdirs _
        rw [WorkflowFiles.isDir, hfolder] at hnot
        exact absurd hnot nofun
      | @directory t' folder' _ _ _ hst' hte' hfolder' htickets' =>
        have hnames := names_of_sawEntry htickets htickets'
        have hentry : ∀ name, (moment u).files.entry state name = (moment v).files.entry state name := by
          intro name
          -- a listed name has an equal line in both passes, and any other has no entry in either
          by_cases hname : name ∈ folder.entries.map (·.1)
          · obtain ⟨line, hline, hline'⟩ := exists_right_of_mem htickets (hnames ▸ htickets') hname
            exact entry_steady hwrites (hforward name) hfree (by omega) (by omega)
              ((isSome_entry hfolder').mpr (hnames ▸ hname)) hline hline' hu (by omega) hv (by omega)
          · have hnone : (moment t).files.entry state name = none :=
              Option.not_isSome_iff_eq_none.mp fun h => hname ((isSome_entry hfolder).mp h)
            have hnone' : (moment t').files.entry state name = none :=
              Option.not_isSome_iff_eq_none.mp fun h =>
                hname (hnames ▸ (isSome_entry hfolder').mp h)
            have heq := hnone.trans hnone'.symm
            rw [(hforward name).eq_between u heq (by omega),
              (hforward name).eq_between v heq (by omega)]
        obtain ⟨folderU, hfolderU⟩ := hdirs u
        obtain ⟨folderV, hfolderV⟩ := hdirs v
        rw [hfolderU, hfolderV]
        refine congrArg _ (Folder.ext (Dict.eq_of_pairwise folderU.sorted folderV.sorted fun name => ?_))
        have hname := hentry name
        rw [WorkflowFiles.entry, WorkflowFiles.entry, hfolderU, hfolderV] at hname
        exact hname
  · rw [(hplain u).1, (hplain v).1]

theorem SawFolder.state_eq {files : ℕ → WorkflowFiles} {lines : List FingerprintLine}
    (h : SawFolder files s₁ e₁ state lines) : ∀ line ∈ lines, line.about = state := by
  cases h with
  | plain => simp [FingerprintLine.about]
  | directory _ _ _ _ htickets =>
    intro line hline
    rcases List.mem_cons.mp hline with rfl | hline
    · rfl
    · obtain ⟨name, -, hsaw⟩ := exists_left_of_mem htickets hline
      obtain ⟨_, _, rfl⟩ := hsaw.name_eq
      rfl

theorem SawFolder.proper {files : ℕ → WorkflowFiles} {lines : List FingerprintLine}
    (hdigest : ∀ raw, '\n' ∉ (Sha256.hexdigest raw).toList)
    (h : SawFolder files s₁ e₁ state lines) : ∀ line ∈ lines, line.Proper := by
  cases h with
  | plain hkind => simpa [FingerprintLine.Proper] using hkind
  | @directory _ folder _ _ hkind _ _ _ htickets =>
    intro line hline
    rcases List.mem_cons.mp hline with rfl | hline
    · exact hkind
    · obtain ⟨name, hname, hsaw⟩ := exists_left_of_mem htickets hline
      obtain ⟨entry, hentry, rfl⟩ := List.mem_map.mp hname
      have hsep := separable_name (folder.canonical entry hentry)
      cases hsaw with
      | symlink _ _ _ _ hl => exact hl ▸ ⟨hsep, by decide, by decide⟩
      | file _ _ _ raw _ hl => exact hl ▸ ⟨hsep, by decide, hdigest raw⟩
      | other _ _ _ _ hl => exact hl ▸ ⟨hsep, by decide, by decide⟩

omit [Sha256] in
/-- The lists of lines of one pass can be told apart in their sequence. -/
theorem lines_eq_of_flatten {states : List TicketState} (hnodup : states.Nodup)
    {L L' : List (List FingerprintLine)}
    (h : List.Forall₂ (fun state lines => ∀ line ∈ lines, line.about = state) states L)
    (h' : List.Forall₂ (fun state lines => ∀ line ∈ lines, line.about = state) states L')
    (heq : L.flatten = L'.flatten) : L = L' := by
  induction h generalizing L' with
  | nil =>
    cases h'
    rfl
  | @cons st lines states L hlines hrest ih =>
    cases h' with
    | @cons _ lines' _ L' hlines' hrest' =>
      obtain ⟨hst, hnodup⟩ := List.nodup_cons.mp hnodup
      -- Only the first list is about the first state.
      have hmine : ∀ {ls : List FingerprintLine} {M : List (List FingerprintLine)},
          (∀ line ∈ ls, line.about = st) →
          List.Forall₂ (fun state lines => ∀ line ∈ lines, line.about = state) states M →
          (ls ++ M.flatten).filter (·.about = st) = ls := by
        intro ls M hls hM
        have hothers : M.flatten.filter (·.about = st) = [] := by
          rw [List.filter_eq_nil_iff]
          intro line hline
          obtain ⟨rest, hrest, hline⟩ := List.mem_flatten.mp hline
          obtain ⟨other, hother, hstate⟩ := exists_left_of_mem hM hrest
          rw [decide_eq_true_iff, hstate line hline]
          rintro rfl
          exact hst hother
        rw [List.filter_append, hothers, List.append_nil, List.filter_eq_self]
        exact fun line hline => decide_eq_true (hls line hline)
      rw [List.flatten_cons, List.flatten_cons] at heq
      have hfirst : lines = lines' := by
        rw [← hmine hlines hrest, ← hmine hlines' hrest', heq]
      subst hfirst
      rw [ih hnodup hrest' (List.append_cancel_left heq)]

/-- What is hashed while the passes are made: ticket files, answers of `git status` and the texts
    of passes. -/
inductive Hashed (moment : ℕ → StatusWorld) (s e : ℕ) : List UInt8 → Prop
  | file {t : ℕ} {state : TicketState} {name : String} {raw : List UInt8} (hs : s ≤ t) (he : t ≤ e)
    (h : (moment t).files.entry state name = some (.file raw)) : Hashed moment s e raw
  | status {t : ℕ} {status : String} (hs : s ≤ t) (he : t ≤ e)
    (h : (moment t).code.status = some status ∨ (moment t).control.status = some status) :
    Hashed moment s e status.toUTF8.data.toList
  | text {s' e' : ℕ} {lines : List FingerprintLine} (hs : s ≤ s') (he : e' ≤ e)
    (h : workflowLines.Returns (fun t => (moment t).files) s' lines e') :
    Hashed moment s e (lineOctets lines)

/-- The digest is written in one line and does not collide on what is hashed. -/
structure SoundDigest (moment : ℕ → StatusWorld) (s e : ℕ) : Prop where
  oneLine : ∀ raw, '\n' ∉ (Sha256.hexdigest raw).toList
  free : ∀ raw raw', Hashed moment s e raw → Hashed moment s e raw' →
    Sha256.hexdigest raw = Sha256.hexdigest raw' → raw = raw'

theorem lines_of_workflowToken {token : String}
    (h : workflowToken.Returns moment s₁ token e₁) :
    ∃ L, List.Forall₂ (SawFolder (fun t => (moment t).files) s₁ e₁) workflowStates L
      ∧ token = Sha256.hexdigest (lineOctets L.flatten)
      ∧ ∃ e', e' ≤ e₁ ∧ workflowLines.Returns (fun t => (moment t).files) s₁ L.flatten e' := by
  obtain ⟨result, m, hresult, h⟩ := Attempt.returns_bind.mp h
  have hrun := Attempt.focus_iff.mp (Attempt.returns_outcome.mp hresult)
  cases result with
  | error raised => cases raised <;> exact absurd h Attempt.not_returns_throw
  | ok digest =>
    obtain ⟨rfl, hle⟩ := Attempt.returns_pure.mp h
    obtain ⟨lines, m', hlines, h⟩ := Attempt.returns_bind.mp hrun
    obtain ⟨rfl, hle'⟩ := Attempt.returns_pure.mp h
    obtain ⟨L, m₂, hL, hflat⟩ := Attempt.returns_bind.mp hlines
    obtain ⟨rfl, hle₂⟩ := Attempt.returns_pure.mp hflat
    refine ⟨L, (Attempt.returns_mapM hL).imp ?_, rfl, m', by omega, hlines⟩
    rintro state lines ⟨s', e', hs', he', hfolder⟩
    exact (sawFolder_of_folderLines hfolder).mono (by omega) (by omega)

/-- **Files.** Between two passes with the same fingerprint the ticket files stood still. -/
theorem files_steady (hwrites : ∀ t, Write (moment t) (moment (t + 1)))
    (hforward : ∀ state name, NoReturn moment s e fun w => w.files.entry state name)
    (hdigest : SoundDigest moment s e) {token : String} (hs : s ≤ s₁) (h₁ : e₁ ≤ s₂) (he : e₂ ≤ e)
    (htoken : workflowToken.Returns moment s₁ token e₁)
    (htoken' : workflowToken.Returns moment s₂ token e₂) {u v : ℕ}
    (hu : e₁ ≤ u) (hu' : u ≤ s₂) (hv : e₁ ≤ v) (hv' : v ≤ s₂) :
    (moment u).files = (moment v).files := by
  obtain ⟨L, hL, heq, m, hm, hlines⟩ := lines_of_workflowToken htoken
  obtain ⟨L', hL', heq', m', hm', hlines'⟩ := lines_of_workflowToken htoken'
  have hle := htoken.le
  have hle' := htoken'.le
  have hproper : ∀ {s' e' : ℕ} {M : List (List FingerprintLine)},
      List.Forall₂ (SawFolder (fun t => (moment t).files) s' e') workflowStates M →
      ∀ line ∈ M.flatten, line.Proper := by
    intro s' e' M hM line hline
    obtain ⟨lines, hmem, hline⟩ := List.mem_flatten.mp hline
    obtain ⟨state, -, hsaw⟩ := exists_left_of_mem hM hmem
    exact hsaw.proper hdigest.oneLine line hline
  have hoctets : lineOctets L.flatten = lineOctets L'.flatten :=
    hdigest.free _ _ (.text hs (by omega) hlines) (.text (by omega) (by omega) hlines')
      (heq.symm.trans heq')
  have hsame : L = L' := by
    refine lines_eq_of_flatten (by decide) (hL.imp fun _ _ h => h.state_eq)
      (hL'.imp fun _ _ h => h.state_eq) ?_
    exact lineOctets_inj (hproper hL) (hproper hL') hoctets
  ext state
  have hstate : state ∈ workflowStates := by cases state <;> decide
  obtain ⟨lines, hsaw, hsaw'⟩ := exists_right_of_mem hL (hsame ▸ hL') hstate
  exact directory_steady hwrites (hforward state)
    (fun hst hte hst' hte' hraw hraw' => hdigest.free _ _ (.file hst hte hraw) (.file hst' hte' hraw'))
    hs he hsaw hsaw' hu hu' hv hv'

end Steady

/-! ### Two passes over the checkouts -/

section Checkouts

variable [Sha256] {moment : ℕ → StatusWorld} {s e s₁ e₁ s₂ e₂ : ℕ}
  {checkout : StatusWorld → Checkout} {remoteRef : String}

/-- What an observation says of the moments at which it was made. -/
structure SawGit (moment : ℕ → StatusWorld) (s e : ℕ) (checkout : StatusWorld → Checkout)
    (remoteRef : String) (observed : GitObservation) : Prop where
  branch : ∃ t, s ≤ t ∧ t ≤ e ∧ (checkout (moment t)).branch = observed.branch
  localHead : ∃ t, s ≤ t ∧ t ≤ e ∧ (checkout (moment t)).localHead = some observed.localHead
  remoteHead : ∃ t, s ≤ t ∧ t ≤ e ∧ (checkout (moment t)).remoteHead = observed.remoteHead
  status : ∃ t, s ≤ t ∧ t ≤ e ∧ ∃ status, (checkout (moment t)).status = some status
    ∧ observed.workingTreeClean = decide (status = "")
    ∧ observed.workingTreeFingerprint = Sha256.hexdigest status.toUTF8.data.toList
  detached : observed.detached = observed.branch.isNone
  remoteRef_eq : observed.remoteRef = remoteRef

theorem SawGit.mono {observed : GitObservation} {s' e' : ℕ}
    (h : SawGit moment s' e' checkout remoteRef observed) (hs : s ≤ s') (he : e' ≤ e) :
    SawGit moment s e checkout remoteRef observed := by
  have hwiden : ∀ {p : ℕ → Prop}, (∃ t, s' ≤ t ∧ t ≤ e' ∧ p t) → ∃ t, s ≤ t ∧ t ≤ e ∧ p t :=
    fun ⟨t, hst, hte, hp⟩ => ⟨t, hs.trans hst, hte.trans he, hp⟩
  exact ⟨hwiden h.branch, hwiden h.localHead, hwiden h.remoteHead, hwiden h.status, h.detached,
    h.remoteRef_eq⟩

omit [Sha256] in
theorem eq_some_of_checked {answer : Option String} {text : String}
    (h : checked answer = .ok text) : answer = some text := by
  unfold checked at h
  split at h
  · rw [Except.ok.inj h]
  · exact absurd h nofun

theorem sawGit_of_observeGit {observed : GitObservation}
    (h : (observeGit checkout remoteRef).Returns moment s observed e) :
    SawGit moment s e checkout remoteRef observed := by
  obtain ⟨branch, m₁, hbranch, h⟩ := Attempt.returns_bind.mp h
  obtain ⟨t₁, hs₁, he₁, rfl⟩ := Attempt.returns_view.mp hbranch
  obtain ⟨localHead, m₂, hlocal, h⟩ := Attempt.returns_bind.mp h
  obtain ⟨t₂, hs₂, he₂, hlocal⟩ := Attempt.returns_ask.mp hlocal
  obtain ⟨remoteHead, m₃, hremote, h⟩ := Attempt.returns_bind.mp h
  obtain ⟨t₃, hs₃, he₃, rfl⟩ := Attempt.returns_view.mp hremote
  obtain ⟨status, m₄, hstatus, h⟩ := Attempt.returns_bind.mp h
  obtain ⟨t₄, hs₄, he₄, hstatus⟩ := Attempt.returns_ask.mp hstatus
  obtain ⟨rfl, hle⟩ := Attempt.returns_pure.mp h
  exact {
    branch := ⟨t₁, by omega, by omega, rfl⟩
    localHead := ⟨t₂, by omega, by omega, eq_some_of_checked hlocal⟩
    remoteHead := ⟨t₃, by omega, by omega, rfl⟩
    status := ⟨t₄, by omega, by omega, status, eq_some_of_checked hstatus, rfl, rfl⟩
    detached := rfl
    remoteRef_eq := rfl }

/-- The branch and the heads of a checkout do not come back to earlier ones. -/
structure HeadsForward (moment : ℕ → StatusWorld) (s e : ℕ) (checkout : StatusWorld → Checkout) :
    Prop where
  branch : NoReturn moment s e fun w => (checkout w).branch
  localHead : NoReturn moment s e fun w => (checkout w).localHead
  remoteHead : NoReturn moment s e fun w => (checkout w).remoteHead

/-- The observation that a checkout's answers give. -/
theorem eval_observeGit {w : StatusWorld} {observed : GitObservation} {status : String}
    (hbranch : (checkout w).branch = observed.branch)
    (hlocal : (checkout w).localHead = some observed.localHead)
    (hremote : (checkout w).remoteHead = observed.remoteHead)
    (hstatus : (checkout w).status = some status)
    (hclean : observed.workingTreeClean = decide (status = ""))
    (hprint : observed.workingTreeFingerprint = Sha256.hexdigest status.toUTF8.data.toList)
    (hdetached : observed.detached = observed.branch.isNone)
    (hremoteRef : observed.remoteRef = remoteRef) :
    (observeGit checkout remoteRef).eval w = .ok observed := by
  simp only [observeGit, Attempt.eval_bind, Attempt.eval_view, Attempt.eval_ask, Attempt.eval_pure,
    hbranch, hlocal, hremote, hstatus, checked]
  show Except.ok _ = Except.ok observed
  rw [← hclean, ← hprint, ← hdetached, ← hremoteRef]

/-- **Checkout.** Two equal observations have seen what the checkout answered in between. -/
theorem git_steady (hcheckout : ∀ w, checkout w = w.code ∨ checkout w = w.control)
    (hheads : HeadsForward moment s e checkout)
    (hstatus : NoReturn moment s e fun w => (checkout w).status) (hdigest : SoundDigest moment s e)
    {observed : GitObservation} (hs : s ≤ s₁) (he : e₂ ≤ e)
    (h : SawGit moment s₁ e₁ checkout remoteRef observed)
    (h' : SawGit moment s₂ e₂ checkout remoteRef observed) {u : ℕ} (hu : e₁ ≤ u) (hu' : u ≤ s₂) :
    (observeGit checkout remoteRef).eval (moment u) = .ok observed := by
  obtain ⟨t₁, hs₁, he₁, hb⟩ := h.branch
  obtain ⟨t₁', hs₁', he₁', hb'⟩ := h'.branch
  obtain ⟨t₂, hs₂, he₂, hl⟩ := h.localHead
  obtain ⟨t₂', hs₂', he₂', hl'⟩ := h'.localHead
  obtain ⟨t₃, hs₃, he₃, hr⟩ := h.remoteHead
  obtain ⟨t₃', hs₃', he₃', hr'⟩ := h'.remoteHead
  obtain ⟨t₄, hs₄, he₄, status, hst, hclean, hprint⟩ := h.status
  obtain ⟨t₄', hs₄', he₄', status', hst', -, hprint'⟩ := h'.status
  have hhashed : ∀ {t : ℕ} {text : String}, s ≤ t → t ≤ e → (checkout (moment t)).status = some text →
      Hashed moment s e text.toUTF8.data.toList := by
    intro t text hst hte htext
    rcases hcheckout (moment t) with hcode | hcontrol
    · exact .status hst hte (.inl (hcode ▸ htext))
    · exact .status hst hte (.inr (hcontrol ▸ htext))
  have htext : status = status' := utf8_inj (hdigest.free _ _ (hhashed (by omega) (by omega) hst)
    (hhashed (by omega) (by omega) hst') (hprint.symm.trans hprint'))
  -- Each answer is the same at its two looks, so it was the same at `u`.
  have hbranch := hheads.branch.eq_between u (hb.trans hb'.symm) (by omega)
  have hlocal := hheads.localHead.eq_between u (hl.trans hl'.symm) (by omega)
  have hremote := hheads.remoteHead.eq_between u (hr.trans hr'.symm) (by omega)
  have hstat := hstatus.eq_between u (hst.trans (htext ▸ hst'.symm)) (by omega)
  exact eval_observeGit (hbranch.trans hb) (hlocal.trans hl) (hremote.trans hr) (hstat.trans hst)
    hclean hprint h.detached h.remoteRef_eq

/-! ### The control checkout -/

section Control

variable {site : StatusSite}

/-- The control worktree can be used. -/
def StatusWorld.usable (site : StatusSite) (w : StatusWorld) : Bool :=
  w.controlFound && w.controlRegistered matches .ok _
    && w.control.branch = some site.service.controlBranch

/-- What the observation of the control checkout says of the moments at which it was made. -/
inductive SawControl (moment : ℕ → StatusWorld) (site : StatusSite) (s e : ℕ) :
    Option GitObservation → Prop
  | unusable {t : ℕ} (hs : s ≤ t) (he : t ≤ e) (h : (moment t).usable site = false) :
    SawControl moment site s e none
  | usable {observed : GitObservation}
    (hfound : ∃ t, s ≤ t ∧ t ≤ e ∧ (moment t).controlFound = true)
    (hregistered : ∃ t, s ≤ t ∧ t ≤ e ∧ (moment t).controlRegistered = .ok ())
    (hbranch : ∃ t, s ≤ t ∧ t ≤ e ∧ (moment t).control.branch = some site.service.controlBranch)
    (h : SawGit moment s e (·.control) (site.remoteName ++ "/" ++ site.service.controlBranch)
      observed) :
    SawControl moment site s e (some observed)

omit [Sha256] in
theorem eq_ok_of_mapError {α : Type} {value : Except String α} {a : α}
    (h : value.mapError Raised.devlegate = .ok a) : value = .ok a := by
  cases value with
  | ok b => exact congrArg _ (Except.ok.inj h)
  | error message => exact absurd h nofun

omit [Sha256] in
/-- A value that is no error does not raise. -/
theorem not_runs_orDevlegateError {α : Type} {a : α} {raised : Raised} :
    ¬ Runs moment (orDevlegateError (.ok a) : Attempt Raised StatusWorld α).run s (.error raised) e :=
  fun h => absurd (Runs.pure_iff.mp h).1 nofun

/-- A validation that ends well has found everything it asked for, at one moment each. -/
theorem validated (h : (validateControlWorktree site).Returns moment s () e) :
    (∃ t, s ≤ t ∧ t ≤ e ∧ (moment t).controlFound = true)
      ∧ (∃ t, s ≤ t ∧ t ≤ e ∧ (moment t).controlRegistered = .ok ())
      ∧ (∃ t, s ≤ t ∧ t ≤ e
        ∧ (moment t).control.branch = some site.service.controlBranch) := by
  obtain ⟨found, m₁, hfound, h⟩ := Attempt.returns_bind.mp h
  obtain ⟨t₁, hs₁, he₁, rfl⟩ := Attempt.returns_view.mp hfound
  split at h
  · next hfound =>
    obtain ⟨registered, m₂, hregistered, h⟩ := Attempt.returns_bind.mp h
    obtain ⟨t₂, hs₂, he₂, rfl⟩ := Attempt.returns_view.mp hregistered
    obtain ⟨_, m₃, hok, h⟩ := Attempt.returns_bind.mp h
    obtain ⟨hok, hle₃⟩ := Attempt.returns_ofExcept.mp hok
    obtain ⟨branch, m₄, hbranch, h⟩ := Attempt.returns_bind.mp h
    obtain ⟨t₄, hs₄, he₄, rfl⟩ := Attempt.returns_view.mp hbranch
    obtain ⟨hrequire, hle⟩ := Attempt.returns_ofExcept.mp h
    refine ⟨⟨t₁, by omega, by omega, hfound⟩, ⟨t₂, by omega, by omega, eq_ok_of_mapError hok⟩,
      ⟨t₄, by omega, by omega, ?_⟩⟩
    have hcheck := eq_ok_of_mapError hrequire
    unfold require at hcheck
    split at hcheck
    · next hbranch => exact of_decide_eq_true hbranch
    · exact absurd hcheck nofun
  · exact absurd h Attempt.not_returns_throw

/-- A validation that fails has found the control worktree of no use at some moment. -/
theorem unusable_of_invalid {raised : Raised}
    (h : Runs moment (validateControlWorktree site).run s (.error raised) e) :
    ∃ t, s ≤ t ∧ t ≤ e ∧ (moment t).usable site = false := by
  rcases Attempt.runs_bind_error h with ⟨m, -, hview⟩ | ⟨found, m₁, hfound, h⟩
  · exact absurd hview Attempt.not_runs_view_error
  obtain ⟨t₁, hs₁, he₁, rfl⟩ := Attempt.returns_view.mp hfound
  split at h
  · rcases Attempt.runs_bind_error h with ⟨m, -, hview⟩ | ⟨registered, m₂, hregistered, h⟩
    · exact absurd hview Attempt.not_runs_view_error
    obtain ⟨t₂, hs₂, he₂, rfl⟩ := Attempt.returns_view.mp hregistered
    have hle := h.le
    cases hreg : (moment t₂).controlRegistered with
    | error message =>
      exact ⟨t₂, by omega, by omega, by simp [StatusWorld.usable, hreg]⟩
    | ok _ =>
      rw [hreg] at h
      rcases Attempt.runs_bind_error h with ⟨m, -, hok⟩ | ⟨_, m₃, hok, h⟩
      · exact absurd hok not_runs_orDevlegateError
      rcases Attempt.runs_bind_error h with ⟨m, -, hview⟩ | ⟨branch, m₄, hbranch, h⟩
      · exact absurd hview Attempt.not_runs_view_error
      obtain ⟨t₄, hs₄, he₄, rfl⟩ := Attempt.returns_view.mp hbranch
      have hle₃ := hok.le
      have hle₄ := h.le
      refine ⟨t₄, by omega, by omega, ?_⟩
      by_cases hbranch : (moment t₄).control.branch = some site.service.controlBranch
      · rw [require, if_pos (decide_eq_true hbranch)] at h
        exact absurd h not_runs_orDevlegateError
      · simp [StatusWorld.usable, hbranch]
  · next hfound =>
    have hle := h.le
    exact ⟨t₁, hs₁, by omega, by simp [StatusWorld.usable, hfound]⟩

theorem sawControl_of_observeControl {control : Option GitObservation}
    (h : (observeControl site).Returns moment s control e) : SawControl moment site s e control := by
  obtain ⟨found, m₁, hfound, h⟩ := Attempt.returns_bind.mp h
  obtain ⟨t₁, hs₁, he₁, rfl⟩ := Attempt.returns_view.mp hfound
  split at h
  · obtain ⟨result, m₂, hresult, h⟩ := Attempt.returns_bind.mp h
    have hrun := Attempt.returns_outcome.mp hresult
    have hle₂ := hrun.le
    cases result with
    | ok _ =>
      obtain ⟨observed, m₃, hobserved, h⟩ := Attempt.returns_bind.mp h
      obtain ⟨rfl, hle⟩ := Attempt.returns_pure.mp h
      have hle₃ := hobserved.le
      have hwiden : ∀ {p : ℕ → Prop}, (∃ t, m₁ ≤ t ∧ t ≤ m₂ ∧ p t) → ∃ t, s ≤ t ∧ t ≤ e ∧ p t :=
        fun ⟨t, hst, hte, hp⟩ => ⟨t, by omega, by omega, hp⟩
      obtain ⟨hf, hr, hb⟩ := validated hrun
      exact .usable (hwiden hf) (hwiden hr) (hwiden hb)
        ((sawGit_of_observeGit hobserved).mono (by omega) hle)
    | error raised =>
      obtain ⟨t, hst, hte, hunusable⟩ := unusable_of_invalid hrun
      cases raised with
      | devlegate message =>
        obtain ⟨rfl, hle⟩ := Attempt.returns_pure.mp h
        exact .unusable (by omega) (by omega) hunusable
      | snapshotChanged | fileNotFound | osError _ | other _ =>
        exact absurd h Attempt.not_returns_throw
  · next hfound =>
    obtain ⟨rfl, hle⟩ := Attempt.returns_pure.mp h
    exact .unusable hs₁ (by omega) (by simp [StatusWorld.usable, hfound])

/-- The validation of a control worktree, at once. -/
theorem eval_validateControlWorktree (site : StatusSite) (w : StatusWorld) :
    if w.usable site then (validateControlWorktree site).eval w = .ok ()
    else ∃ message, (validateControlWorktree site).eval w = .error (.devlegate message) := by
  unfold validateControlWorktree StatusWorld.usable
  rw [Attempt.eval_view_bind]
  cases hfound : w.controlFound with
  | false => exact ⟨_, rfl⟩
  | true =>
    rw [if_pos rfl, Attempt.eval_view_bind]
    cases hregistered : w.controlRegistered with
    | error message => exact ⟨message, rfl⟩
    | ok _ =>
      by_cases hbranch : w.control.branch = some site.service.controlBranch
      · rw [if_pos (by simp [hbranch])]
        show (require (decide (w.control.branch = some site.service.controlBranch)) _).mapError
          Raised.devlegate = .ok ()
        rw [decide_eq_true hbranch]
        rfl
      · rw [if_neg (by simp [hbranch])]
        show ∃ message, (require (decide (w.control.branch = some site.service.controlBranch))
          _).mapError Raised.devlegate = .error (.devlegate message)
        rw [decide_eq_false hbranch]
        exact ⟨_, rfl⟩

/-- The observation of a control worktree that cannot be used. -/
theorem eval_observeControl_unusable {w : StatusWorld} (h : w.usable site = false) :
    (observeControl site).eval w = .ok none := by
  have hvalidate := eval_validateControlWorktree site w
  rw [if_neg (Bool.eq_false_iff.mp h)] at hvalidate
  obtain ⟨message, hvalidate⟩ := hvalidate
  unfold observeControl
  rw [Attempt.eval_view_bind]
  cases hfound : w.controlFound with
  | false => rfl
  | true =>
    rw [if_pos rfl, Attempt.eval_bind, Attempt.eval_outcome, hvalidate]
    rfl

theorem eval_observeControl_usable {w : StatusWorld} {observed : GitObservation}
    (hfound : w.controlFound = true) (hregistered : w.controlRegistered = .ok ())
    (hbranch : w.control.branch = some site.service.controlBranch)
    (h : (observeGit (·.control) (site.remoteName ++ "/" ++ site.service.controlBranch)).eval w
      = .ok observed) : (observeControl site).eval w = .ok (some observed) := by
  have husable : w.usable site = true := by
    simp [StatusWorld.usable, hfound, hregistered, hbranch]
  have hvalidate := eval_validateControlWorktree site w
  rw [if_pos husable] at hvalidate
  unfold observeControl
  rw [Attempt.eval_view_bind, hfound, if_pos rfl, Attempt.eval_bind, Attempt.eval_outcome, hvalidate]
  show Attempt.eval w (_ >>= _) = _
  rw [Attempt.eval_bind, h]
  rfl

/-- The answers about the control worktree do not come back to earlier ones. -/
structure ControlForward (moment : ℕ → StatusWorld) (site : StatusSite) (s e : ℕ) : Prop where
  found : NoReturn moment s e fun w => w.controlFound
  registered : NoReturn moment s e fun w => w.controlRegistered
  usable : NoReturn moment s e fun w => w.usable site

/-- **Control.** Two equal observations of the control checkout have seen it in between. -/
theorem control_steady (hheads : HeadsForward moment s e (·.control))
    (hstatus : NoReturn moment s e fun w => w.control.status) (hcontrol : ControlForward moment site s e)
    (hdigest : SoundDigest moment s e) {control : Option GitObservation} (hs : s ≤ s₁) (he : e₂ ≤ e)
    (h : SawControl moment site s₁ e₁ control) (h' : SawControl moment site s₂ e₂ control) {u : ℕ}
    (hu : e₁ ≤ u) (hu' : u ≤ s₂) : (observeControl site).eval (moment u) = .ok control := by
  cases h with
  | @unusable t hst hte hunusable =>
    cases h' with
    | @unusable t' hst' hte' hunusable' =>
      refine eval_observeControl_unusable ?_
      rw [hcontrol.usable.eq_between u (hunusable.trans hunusable'.symm) (by omega)]
      exact hunusable
  | usable hfound hregistered hbranch hsaw =>
    cases h' with
    | usable hfound' hregistered' hbranch' hsaw' =>
      obtain ⟨t₁, hs₁, he₁, hf⟩ := hfound
      obtain ⟨t₁', hs₁', he₁', hf'⟩ := hfound'
      obtain ⟨t₂, hs₂, he₂, hr⟩ := hregistered
      obtain ⟨t₂', hs₂', he₂', hr'⟩ := hregistered'
      obtain ⟨t₃, hs₃, he₃, hb⟩ := hbranch
      obtain ⟨t₃', hs₃', he₃', hb'⟩ := hbranch'
      have hfound := hcontrol.found.eq_between u (hf.trans hf'.symm) (by omega)
      have hregistered :=
        hcontrol.registered.eq_between u (hr.trans hr'.symm) (by omega)
      have hbranch := hheads.branch.eq_between u (hb.trans hb'.symm) (by omega)
      exact eval_observeControl_usable (hfound.trans hf) (hregistered.trans hr) (hbranch.trans hb)
        (git_steady (fun _ => .inr rfl) hheads hstatus hdigest hs he hsaw hsaw' hu hu')

end Control

end Checkouts

/-! ### The attempt -/

section Attempt

variable [Sha256] [NanoYaml] {moment : ℕ → StatusWorld} {site : StatusSite} {s e : ℕ}

/-- What a snapshot is made of is there. -/
structure Present (site : StatusSite) (w : StatusWorld) (seen : Seen) : Prop where
  state : seen.state = storedState w
  code : (observeGit (·.code) (site.remoteName ++ "/" ++ site.service.remoteBranch)).eval w
    = .ok seen.code
  control : (observeControl site).eval w = .ok seen.control
  tickets : ∀ store, seen.tickets = .ok store →
    (loadTicketStore site.path).eval w.files = .ok store

/-- No head and no ticket file comes back to an earlier value. -/
structure WritersForward (moment : ℕ → StatusWorld) (s e : ℕ) : Prop where
  code : HeadsForward moment s e (·.code)
  control : HeadsForward moment s e (·.control)
  files : ∀ state name, NoReturn moment s e fun w => w.files.entry state name

/-- The other answers do not come back either: those of `git status`, and those about the control
    worktree. -/
structure AnswersForward (moment : ℕ → StatusWorld) (site : StatusSite) (s e : ℕ) : Prop where
  codeStatus : NoReturn moment s e fun w => w.code.status
  controlStatus : NoReturn moment s e fun w => w.control.status
  control : ControlForward moment site s e

omit [NanoYaml] in
/-- A state observation is of one moment. -/
theorem stored_of_observation {observed : RuntimeState × String}
    (h : statusStateObservation.Returns moment s observed e) :
    ∃ t, s ≤ t ∧ t ≤ e ∧ observed = (storedState (moment t), stateToken (moment t)) := by
  obtain ⟨observed', m, hobserved, h⟩ := Attempt.returns_bind.mp h
  obtain ⟨t, hs, he, rfl⟩ := Attempt.returns_view.mp hobserved
  obtain ⟨_, m', hvalid, h⟩ := Attempt.returns_bind.mp h
  obtain ⟨rfl, hle⟩ := Attempt.returns_pure.mp h
  have hle' := hvalid.le
  exact ⟨t, hs, by omega, rfl⟩

/-- Tickets that were loaded are those of the files, where these stood still. -/
theorem eval_of_readTickets {store : TicketStore} {files : WorkflowFiles}
    (h : (readTickets site).Returns moment s (.ok store) e)
    (hstill : ∀ t, s ≤ t → t ≤ e → (moment t).files = files) :
    (loadTicketStore site.path).eval files = .ok store := by
  obtain ⟨read, m₁, hread, h⟩ := Attempt.returns_bind.mp h
  have hle₁ := h.le
  have hrun := Attempt.returns_outcome.mp hread
  have hstore : read = .ok store := by
    cases read with
    | ok store' => rw [Except.ok.inj (Attempt.returns_pure.mp h).1]
    | error raised =>
      cases raised with
      | devlegate message => exact absurd (Attempt.returns_pure.mp h).1 nofun
      | osError message => exact absurd (Attempt.returns_pure.mp h).1 nofun
      | snapshotChanged | fileNotFound | other _ => exact absurd h Attempt.not_returns_throw
  subst hstore
  obtain ⟨product, m₂, hproduct, h⟩ := Attempt.returns_bind.mp hrun
  have hle₂ := hproduct.le
  split at h
  · exact absurd h Attempt.not_returns_throw
  obtain ⟨_, m₃, hvalid, h⟩ := Attempt.returns_bind.mp h
  have hle₃ := hvalid.le
  obtain ⟨_, m₄, hdirs, h⟩ := Attempt.returns_bind.mp h
  have hle₄ := hdirs.le
  obtain ⟨loaded, m₅, hloaded, h⟩ := Attempt.returns_bind.mp h
  have hle₅ := h.le
  have hload := Attempt.focus_iff.mp (Attempt.returns_outcome.mp hloaded)
  have heval := hload.eval_eq fun t hs he => hstill t (by omega) (by omega)
  cases loaded with
  | ok store' =>
    obtain ⟨rfl, -⟩ := Attempt.returns_pure.mp h
    exact heval.symm
  | error raised => cases raised <;> exact absurd h Attempt.not_returns_throw

/-- **One moment.** If neither the heads and the ticket files nor the other answers come back to
    earlier ones, a snapshot is made of what was there at one moment of the attempt. -/
theorem collectStatusAttempt_atOneMoment {allowWorkflowBlocked : Bool} {snapshot : StatusSnapshot}
    (hwrites : ∀ t, Write (moment t) (moment (t + 1))) (hforward : WritersForward moment s e)
    (hdigest : SoundDigest moment s e) (hanswers : AnswersForward moment site s e)
    (hrun : (collectStatusAttempt site allowWorkflowBlocked).Returns moment s snapshot e) :
    ∃ m, s ≤ m ∧ m ≤ e ∧ ∃ seen, Present site (moment m) seen
      ∧ seen.snapshot site allowWorkflowBlocked = .ok snapshot := by
  obtain ⟨seen, m, hobserve, h⟩ := Attempt.returns_bind.mp hrun
  obtain ⟨hsnapshot, hle⟩ := Attempt.returns_ofExcept.mp h
  obtain ⟨before, m₁, hbefore, h⟩ := Attempt.returns_bind.mp hobserve
  obtain ⟨gitBefore, m₂, hgit, h⟩ := Attempt.returns_bind.mp h
  obtain ⟨token, m₃, htoken, h⟩ := Attempt.returns_bind.mp h
  obtain ⟨tickets, m₄, htickets, h⟩ := Attempt.returns_bind.mp h
  obtain ⟨token', m₅, htoken', h⟩ := Attempt.returns_bind.mp h
  obtain ⟨gitAfter, m₆, hgit', h⟩ := Attempt.returns_bind.mp h
  obtain ⟨after, m₇, hafter, h⟩ := Attempt.returns_bind.mp h
  have hle₁ := hbefore.le
  have hle₂ := hgit.le
  have hle₃ := htoken.le
  have hle₄ := htickets.le
  have hle₅ := htoken'.le
  have hle₆ := hgit'.le
  have hle₇ := hafter.le
  split at h
  · next hsame =>
    obtain ⟨rfl, hle₈⟩ := Attempt.returns_pure.mp h
    obtain ⟨t, hst, hte, rfl⟩ := stored_of_observation hbefore
    obtain ⟨t', hst', hte', rfl⟩ := stored_of_observation hafter
    obtain ⟨hstate, rfl, rfl⟩ := hsame
    obtain ⟨control, mc, hcontrol, hgit⟩ := Attempt.returns_bind.mp hgit
    obtain ⟨code, md, hcode, hgit⟩ := Attempt.returns_bind.mp hgit
    obtain ⟨rfl, hled⟩ := Attempt.returns_pure.mp hgit
    obtain ⟨control', mc', hcontrol', hgit'⟩ := Attempt.returns_bind.mp hgit'
    obtain ⟨code', md', hcode', hgit'⟩ := Attempt.returns_bind.mp hgit'
    obtain ⟨hpair, hled'⟩ := Attempt.returns_pure.mp hgit'
    obtain ⟨rfl, rfl⟩ := Prod.mk.inj hpair
    have hlec := hcontrol.le
    have hlec' := hcontrol'.le
    have hled₁ := hcode.le
    have hled₁' := hcode'.le
    -- The moment between the first fingerprint and the tickets.
    refine ⟨m₃, by omega, by omega, _, ?_, hsnapshot⟩
    exact {
      state := by
        have hrow := stored_steady hwrites (t := t) (u := m₃) (v := t') (by omega) (by omega) hstate
        rw [storedState, storedState, hrow]
      code := git_steady (fun _ => .inl rfl) hforward.code hanswers.codeStatus hdigest (by omega)
        (by omega) (sawGit_of_observeGit hcode) (sawGit_of_observeGit hcode') (by omega) (by omega)
      control := control_steady hforward.control hanswers.controlStatus hanswers.control hdigest
        (by omega) (by omega) (sawControl_of_observeControl hcontrol)
        (sawControl_of_observeControl hcontrol') (by omega) (by omega)
      tickets := by
        rintro store rfl
        refine eval_of_readTickets htickets fun u hu hu' => ?_
        exact files_steady hwrites hforward.files hdigest (by omega) (by omega) (by omega) htoken
          htoken' hu hu' (by omega) (by omega) }
  · exact absurd h Attempt.not_returns_throw

end Attempt

/-! ### A commit between two looks -/

/-- What a snapshot shows of what it was made of. -/
theorem shown_of_snapshot [Sha256] {site : StatusSite} {allowed : Bool} {seen : Seen}
    {snapshot : StatusSnapshot} (h : seen.snapshot site allowed = .ok snapshot) :
    snapshot.control = seen.control
      ∧ ((∃ store, seen.tickets = .ok store ∧ snapshot.counts
          = workflowStates.map fun state => (state, store.tickets.countP (·.state = state)))
        ∨ snapshot.counts = workflowStates.map fun state => (state, 0)) := by
  unfold Seen.snapshot at h
  split at h
  · next store htickets =>
    cases hmake : makeStatusSnapshot site.service seen.state seen.code seen.control (some store)
      none with
    | error message =>
      rw [hmake] at h
      exact absurd h nofun
    | ok made =>
      rw [hmake] at h
      obtain rfl : made = snapshot := Except.ok.inj h
      simp only [makeStatusSnapshot, bind, Except.bind] at hmake
      split at hmake
      · exact absurd hmake nofun
      split at hmake
      · exact absurd hmake nofun
      split at hmake
      · exact absurd hmake nofun
      split at hmake
      · exact absurd hmake nofun
      cases hmake
      exact ⟨rfl, .inl ⟨store, htickets, rfl⟩⟩
  · split at h
    · cases h
      exact ⟨rfl, .inr rfl⟩
    · exact absurd h nofun

namespace Torn

/-- The metadata of one ticket. -/
abbrev yaml : NanoYaml :=
  ⟨fun _ => .ok [("type", .string "devlegate.ticket"), ("title", .string "t")]⟩

/-- The file of a ticket. -/
def file : List UInt8 := octets "---\ntype: devlegate.ticket\ntitle: t\n---\nbody\n"

/-- The answer of `git status` while the ticket is not committed. -/
def untracked : String := "?? todo/t1.md\n"

def emptyDigest : String := "e3b0c44298fc1c149afbf4c8996fb92427ae41e4649b934ca495991b7852b855"

def fileDigest : String := "3e673508a9c3599e02d97997a3e99c131add66e87a4335249b6359ea2f65027c"

/-- The lines of a state. -/
def linesOf (written : Bool) (state : TicketState) : List FingerprintLine :=
  .folder state "dir"
    :: if state = .todo ∧ written then [.ticket state "t1.md" "file" fileDigest] else []

/-- The lines of a pass. -/
def lines (written : Bool) : List FingerprintLine := (workflowStates.map (linesOf written)).flatten

/-- What is hashed, with its digest. -/
def digests : List (List UInt8 × String) :=
  [(file, fileDigest),
    ("".toUTF8.data.toList, emptyDigest),
    (untracked.toUTF8.data.toList,
      "48ca3b58e048f9317a147240e3f29e7eda178ef7876dfc017c327ab100c7fbdf"),
    (lineOctets (lines false), "001f8abcf4f39874ea3a1651a74f538dc5eaecd6772cf7823a8c46f6332f0093"),
    (lineOctets (lines true), "5abf75da9f27fe11e53d12e65860897798efb0dc2854d45b374f6e3e4cbc7f67")]

/-- SHA-256, on what is hashed here. -/
abbrev sha : Sha256 := ⟨fun raw => (digests.lookup raw).getD ""⟩

def service : @StatusService sha :=
  letI := sha
  { remoteBranch := "main"
    controlBranch := "control"
    current := {}
    current_valid := by decide
    ownedExecutionId := none
    owns := fun _ => false
    observe := fun _ => .absent
    inspectBoundExecutionWorkspace := fun _ => ⟨.reusable, ""⟩
    todoFingerprint := ""
    readReport := fun _ _ => none }

def site : @StatusSite sha :=
  letI := sha
  ⟨service, "origin", TicketState.word⟩

/-- The ticket files: one ticket that is to be done, or none. -/
def files (written : Bool) : WorkflowFiles := fun state =>
  if state = .todo ∧ written then
    .directory ⟨[("t1.md", .file file)], by decide, by decide⟩
  else .directory ⟨[], by decide, by decide⟩

/-- The project before the ticket is written, with the ticket, and after the commit. -/
def world (written committed : Bool) : StatusWorld where
  stored := none
  code := ⟨some "main", some "p0", none, some ""⟩
  control := ⟨some "control", some (if committed then "c1" else "c0"), none,
    some (if written && !committed then untracked else "")⟩
  controlFound := true
  controlRegistered := .ok ()
  productWorkflow := false
  files := files written

/-- The ticket is written, then committed. -/
def moment (t : ℕ) : StatusWorld := world (0 < t) (1 < t)

/-- The first Git observation is made before the ticket is written, everything up to the last answer
    of `git status` in the control checkout before the commit. -/
def waits : List ℕ := List.replicate 13 0 ++ 1 :: List.replicate 69 0 ++ [1]

/-- The control checkout as the torn snapshot shows it. -/
def shownControl : GitObservation where
  branch := some "control"
  detached := false
  localHead := "c0"
  remoteRef := "origin/control"
  remoteHead := none
  workingTreeClean := true
  workingTreeFingerprint := emptyDigest

/-- The attempt with this digest and this metadata. -/
abbrev attempt : Attempt Raised StatusWorld StatusSnapshot := @collectStatusAttempt sha yaml site true

/-- What the snapshot of the run shows, and when the run ends. -/
theorem shown : (attempt.run.exec moment waits 0).1.toOption.map
      (fun snapshot => (snapshot.control, snapshot.counts)) = some (some shownControl,
        [(.backlog, 0), (.todo, 1), (.review, 0), (.accepted, 0), (.done, 0)])
    ∧ (attempt.run.exec moment waits 0).2 = 2 := by
  decide +kernel

theorem exists_run : ∃ snapshot, attempt.Returns moment 0 snapshot 2
    ∧ snapshot.control = some shownControl
    ∧ snapshot.counts = [(.backlog, 0), (.todo, 1), (.review, 0), (.accepted, 0), (.done, 0)] := by
  have hruns := @Runs.of_exec _ _ moment attempt.run waits 0
  obtain ⟨hshown, hends⟩ := shown
  rw [hends] at hruns
  obtain ⟨snapshot, hresult, heq⟩ := Option.map_eq_some_iff.mp hshown
  obtain ⟨hcontrol, hcounts⟩ := Prod.mk.inj heq
  rw [Loops.toOption_eq_some.mp hresult] at hruns
  exact ⟨snapshot, hruns, hcontrol, hcounts⟩

/-- Before the commit the control checkout is not clean, after it the head is another one. -/
theorem control_differs : ∀ m ∈ [1, 2],
    ((@observeControl sha site).eval (moment m)).toOption ≠ some (some shownControl) := by
  decide

/-- Before the ticket is written there is none. -/
theorem no_tickets : ((@loadTicketStore yaml TicketState.word).eval (moment 0).files).toOption
    = some ⟨[]⟩ := by
  decide

/-- At no moment the ticket was there while the control checkout was clean at its first head. -/
theorem not_present {m : ℕ} (hm : m ≤ 2) {seen : Seen} (h : @Present sha yaml site (moment m) seen)
    {snapshot : StatusSnapshot} (hsnapshot : @Seen.snapshot sha site true seen = .ok snapshot)
    (hcontrol : snapshot.control = some shownControl)
    (hcounts : snapshot.counts
      = [(.backlog, 0), (.todo, 1), (.review, 0), (.accepted, 0), (.done, 0)]) : False := by
  obtain ⟨hshown, hstore⟩ := @shown_of_snapshot sha site true seen snapshot hsnapshot
  have hobserved := @Present.control sha yaml _ _ _ h
  rw [← hshown, hcontrol] at hobserved
  have hlater : m ∉ [1, 2] := fun hmem =>
    control_differs m hmem (congrArg Except.toOption hobserved)
  obtain rfl : m = 0 := by
    simp only [List.mem_cons, List.not_mem_nil, or_false] at hlater
    omega
  rcases hstore with ⟨store, htickets, hstore⟩ | hstore
  · have hloaded := congrArg Except.toOption (@Present.tickets sha yaml _ _ _ h store htickets)
    obtain rfl := Option.some.inj (hloaded.symm.trans no_tickets)
    exact absurd (hcounts.symm.trans hstore) (by decide)
  · exact absurd (hcounts.symm.trans hstore) (by decide)

theorem entry_files (written : Bool) (state : TicketState) (name : String) :
    (files written).entry state name
      = if state = .todo ∧ written = true ∧ name = "t1.md" then some (.file file) else none := by
  unfold WorkflowFiles.entry files
  by_cases hstate : state = .todo ∧ written = true
  · by_cases hname : name = "t1.md"
    · simp [hstate, hname]
    · simp [hstate, hname, List.lookup_cons, beq_eq_false_iff_ne.mpr hname]
  · simp [hstate, ← and_assoc]

theorem isDir_files (written : Bool) (state : TicketState) :
    (files written).isDir state = true := by
  unfold WorkflowFiles.isDir files
  by_cases hstate : state = .todo ∧ written = true
  · simp [hstate]
  · simp [hstate]

theorem isRegular_files (written : Bool) (state : TicketState) (name : String) :
    IsRegular ((files written).entry state name) := by
  rw [entry_files]
  split
  · rintro _ ⟨⟩
    exact ⟨file, rfl⟩
  · rintro _ ⟨⟩

theorem writes (t : ℕ) : Write (moment t) (moment (t + 1)) where
  stored := .inl rfl
  folders state := .inr ⟨isDir_files _ state, isDir_files _ state⟩
  entries state name := .inr ⟨isRegular_files _ state name, isRegular_files _ state name⟩

theorem forward : WritersForward moment 0 2 where
  code := ⟨fun _ _ _ _ _ _ _ _ => rfl, fun _ _ _ _ _ _ _ _ => rfl, fun _ _ _ _ _ _ _ _ => rfl⟩
  control := {
    branch := fun _ _ _ _ _ _ _ _ => rfl
    localHead := .of_once (n := 1) (a := some "c0") (b := some "c1") fun t => by
      by_cases ht : 1 < t <;> simp [moment, world, ht]
    remoteHead := fun _ _ _ _ _ _ _ _ => rfl }
  files state name := .of_once (n := 0) (a := (files false).entry state name)
    (b := (files true).entry state name) fun t => by
      by_cases ht : 0 < t <;> simp [moment, world, ht]

/-! #### What is hashed -/

theorem not_mem_ofList {c : Char} {chars : List Char} (h : c ∉ chars) :
    c ∉ (String.ofList chars).toList := by
  rwa [String.toList_ofList]

theorem mem_digests {raw : List UInt8} {digest : String} (h : digests.lookup raw = some digest) :
    (raw, digest) ∈ digests := by
  obtain ⟨before, after, heq, -⟩ := List.lookup_eq_some_iff.mp h
  simp [heq]

theorem digest_oneLine (raw : List UInt8) : '\n' ∉ (sha.hexdigest raw).toList := by
  have hlines : ∀ entry ∈ digests, '\n' ∉ entry.2.toList := by
    simp only [digests, List.forall_mem_cons, List.not_mem_nil, false_implies, implies_true, and_true]
    exact ⟨not_mem_ofList (by decide), not_mem_ofList (by decide), not_mem_ofList (by decide),
      not_mem_ofList (by decide), not_mem_ofList (by decide)⟩
  show '\n' ∉ ((digests.lookup raw).getD "").toList
  cases hfound : digests.lookup raw with
  | none => simp
  | some digest => exact hlines (raw, digest) (mem_digests hfound)

theorem digests_fst : digests.map (·.1) = [file, "".toUTF8.data.toList,
    untracked.toUTF8.data.toList, lineOctets (lines false), lineOctets (lines true)] := by
  simp only [digests, List.map_cons, List.map_nil]

theorem digest_file : sha.hexdigest file = fileDigest := by
  decide

/-- What is hashed has its digest in the table. -/
theorem mem_digests_hexdigest {raw : List UInt8} (h : raw ∈ digests.map (·.1)) :
    (raw, sha.hexdigest raw) ∈ digests := by
  cases hfound : digests.lookup raw with
  | none =>
    obtain ⟨⟨_, digest⟩, hmem, rfl⟩ := List.mem_map.mp h
    exact absurd (List.lookup_eq_none_iff.mp hfound _ hmem) (by simp)
  | some digest =>
    show (raw, (digests.lookup raw).getD "") ∈ digests
    rw [hfound]
    exact mem_digests hfound

/-- No digest is in the table twice. -/
theorem digests_free : ∀ raw ∈ digests.map (·.1), ∀ raw' ∈ digests.map (·.1),
    sha.hexdigest raw = sha.hexdigest raw' → raw = raw' := by
  intro raw hraw raw' hraw' heq
  have hnodup : (digests.map (·.2)).Nodup := by decide
  have hsame := List.inj_on_of_nodup_map hnodup (mem_digests_hexdigest hraw)
    (mem_digests_hexdigest hraw') heq
  exact congrArg Prod.fst hsame

section Pass

variable {n s e : ℕ} {state : TicketState}

theorem kind_eq_dir {kind : String}
    (h : (folderKind state).Returns (fun t => files (n < t)) s kind e) : kind = "dir" := by
  obtain ⟨dir, m, hdir, h⟩ := Attempt.returns_bind.mp h
  obtain ⟨t, -, -, rfl⟩ := Attempt.returns_view.mp hdir
  rw [isDir_files, if_pos rfl] at h
  exact (Attempt.returns_pure.mp h).1

/-- The ticket is read where it was listed, as it stays. -/
theorem line_of_listed {t : ℕ} {line : FingerprintLine} (ht : n < t)
    (h : @SawEntry sha (fun t => files (n < t)) t e .todo "t1.md" line) :
    line = .ticket .todo "t1.md" "file" fileDigest := by
  have hentry : ∀ t', t ≤ t' → (files (n < t')).entry .todo "t1.md" = some (.file file) := by
    intro t' htt'
    rw [entry_files, if_pos ⟨rfl, decide_eq_true (by omega), rfl⟩]
  cases h with
  | symlink t' hs _ hlink => exact absurd ((hentry t' hs).symm.trans hlink) nofun
  | file t' hs _ raw hraw hline =>
    obtain rfl := WorkflowEntry.file.inj (Option.some.inj ((hentry t' hs).symm.trans hraw))
    exact hline.trans (congrArg _ digest_file)
  | other t' hs _ hother _ => exact absurd (hentry t' hs) (hother file)

theorem linesOf_of_folderLines {found : List FingerprintLine}
    (h : (@folderLines sha state).Returns (fun t => files (n < t)) s found e) :
    ∃ written, found = linesOf written state := by
  obtain ⟨kind, m, hkind, h⟩ := Attempt.returns_bind.mp h
  obtain rfl := kind_eq_dir hkind
  obtain ⟨dir, m', hdir, h⟩ := Attempt.returns_bind.mp h
  obtain ⟨t, -, -, rfl⟩ := Attempt.returns_view.mp hdir
  rw [isDir_files, if_pos rfl] at h
  obtain ⟨names, m₁, hnames, h⟩ := Attempt.returns_bind.mp h
  obtain ⟨u, -, hu, hiter⟩ := Attempt.returns_ask.mp hnames
  obtain ⟨tickets, m₂, htickets, h⟩ := Attempt.returns_bind.mp h
  obtain ⟨rfl, -⟩ := Attempt.returns_pure.mp h
  have hread := Attempt.returns_mapM htickets
  refine ⟨n < u, congrArg _ ?_⟩
  unfold WorkflowFiles.iterdir files at hiter
  by_cases htodo : state = .todo ∧ decide (n < u) = true
  · rw [if_pos htodo] at hiter ⊢
    obtain rfl := Except.ok.inj hiter
    obtain ⟨rfl, hlater⟩ := htodo
    obtain _ | ⟨⟨s', e', hs', -, hline⟩, hrest⟩ := hread
    cases hrest
    have hsaw := @sawEntry_of_ticketLine _ _ _ sha _ _ _ hline
    rw [line_of_listed (of_decide_eq_true hlater)
      (@SawEntry.mono _ _ _ sha _ _ _ _ _ hsaw (hu.trans hs') (Nat.le_refl _))]
  · rw [if_neg htodo] at hiter ⊢
    obtain rfl := Except.ok.inj hiter
    cases hread
    rfl

/-- A pass over the files finds one of the two texts. -/
theorem lines_of_workflowLines {found : List FingerprintLine}
    (h : (@workflowLines sha).Returns (fun t => files (n < t)) s found e) :
    ∃ written, found = lines written := by
  obtain ⟨L, m, hL, h⟩ := Attempt.returns_bind.mp h
  obtain ⟨rfl, -⟩ := Attempt.returns_pure.mp h
  have hstates : List.Forall₂ (fun state found => ∃ written, found = linesOf written state)
      workflowStates L := by
    refine (Attempt.returns_mapM hL).imp ?_
    rintro state found ⟨s', e', -, -, hfound⟩
    exact linesOf_of_folderLines hfound
  obtain _ | ⟨⟨_, rfl⟩, hstates⟩ := hstates
  obtain _ | ⟨⟨written, rfl⟩, hstates⟩ := hstates
  obtain _ | ⟨⟨_, rfl⟩, hstates⟩ := hstates
  obtain _ | ⟨⟨_, rfl⟩, hstates⟩ := hstates
  obtain _ | ⟨⟨_, rfl⟩, hstates⟩ := hstates
  cases hstates
  -- Only the lines of `todo` depend on the moment at which the folder was listed.
  exact ⟨written, rfl⟩

/-- Where the ticket appears once and `git status` gives these two answers, the digest is sound. -/
theorem soundDigest {moment : ℕ → StatusWorld} (n : ℕ)
    (hfiles : ∀ t, (moment t).files = files (n < t))
    (hcode : ∀ t, (moment t).code.status = some "")
    (hcontrol : ∀ t, (moment t).control.status = some ""
      ∨ (moment t).control.status = some untracked) : @SoundDigest sha moment s e := by
  have hknown : ∀ raw, @Hashed sha moment s e raw → raw ∈ digests.map (·.1) := by
    intro raw hraw
    rw [digests_fst]
    cases hraw with
    | @file t state name raw _ _ hentry =>
      rw [hfiles, entry_files] at hentry
      split at hentry
      · obtain rfl := WorkflowEntry.file.inj (Option.some.inj hentry)
        exact .head _
      · exact absurd hentry nofun
    | @status t status _ _ hstatus =>
      have hanswer : status = "" ∨ status = untracked := by
        rcases hstatus with hstatus | hstatus
        · exact .inl (Option.some.inj (hstatus.symm.trans (hcode t)))
        · exact (hcontrol t).imp (fun h => Option.some.inj (hstatus.symm.trans h))
            fun h => Option.some.inj (hstatus.symm.trans h)
      rcases hanswer with rfl | rfl <;> simp
    | text _ _ hpass =>
      rw [funext hfiles] at hpass
      obtain ⟨written, rfl⟩ := lines_of_workflowLines hpass
      cases written <;> simp
  exact @SoundDigest.mk sha _ _ _ digest_oneLine fun raw raw' h h' =>
    digests_free raw (hknown raw h) raw' (hknown raw' h')

end Pass

theorem sound : @SoundDigest sha moment 0 2 :=
  soundDigest 0 (fun _ => rfl) (fun _ => rfl) fun t => by
    by_cases ht : 0 < t ∧ t ≤ 1
    · exact .inr (by simp [moment, world, ht])
    · refine .inl ?_
      simp only [moment, world, Bool.and_eq_true, Bool.not_eq_true', decide_eq_true_eq,
        decide_eq_false_iff_not, not_lt]
      rw [if_neg ht]

/-! #### Writers that go on -/

/-- The state is saved, then the ticket is written, then a commit is made in the code worktree. -/
def moving (t : ℕ) : StatusWorld :=
  { world (1 < t) false with
    stored := if 0 < t then some ({ localHead := some "p0" }, 1) else none
    code := ⟨some "main", some (if 2 < t then "p1" else "p0"), none, some ""⟩ }

/-- The state is saved before the first look at it, the ticket is written after that look, and the
    commit is made after the last one. -/
def movingWaits : List ℕ := 1 :: List.replicate 7 0 ++ 1 :: List.replicate 78 0 ++ [1]

theorem moving_shown : (attempt.run.exec moving movingWaits 0).1.toOption.map
      (fun snapshot => (snapshot.code.localHead, snapshot.counts)) = some ("p0",
        [(.backlog, 0), (.todo, 1), (.review, 0), (.accepted, 0), (.done, 0)])
    ∧ (attempt.run.exec moving movingWaits 0).2 = 3 := by
  decide +kernel

theorem moving_writes (t : ℕ) : Write (moving t) (moving (t + 1)) where
  stored := by
    by_cases ht : 0 < t
    · exact .inl (by simp [moving, ht])
    · exact .inr ⟨{ localHead := some "p0" }, by simp [moving, ht]⟩
  folders state := .inr ⟨isDir_files _ state, isDir_files _ state⟩
  entries state name := .inr ⟨isRegular_files _ state name, isRegular_files _ state name⟩

theorem moving_forward : WritersForward moving 0 3 where
  code := {
    branch := fun _ _ _ _ _ _ _ _ => rfl
    localHead := .of_once (n := 2) (a := some "p0") (b := some "p1") fun t => by
      by_cases ht : 2 < t <;> simp [moving, ht]
    remoteHead := fun _ _ _ _ _ _ _ _ => rfl }
  control := ⟨fun _ _ _ _ _ _ _ _ => rfl, fun _ _ _ _ _ _ _ _ => rfl, fun _ _ _ _ _ _ _ _ => rfl⟩
  files state name := .of_once (n := 1) (a := (files false).entry state name)
    (b := (files true).entry state name) fun t => by
      by_cases ht : 1 < t <;> simp [moving, world, ht]

theorem moving_answers : @AnswersForward sha moving site 0 3 :=
  @AnswersForward.mk sha _ _ _ _ (fun _ _ _ _ _ _ _ _ => rfl)
    (.of_once (n := 1) (a := some "") (b := some untracked) fun t => by
      by_cases ht : 1 < t <;> simp [moving, world, ht])
    (@ControlForward.mk sha _ _ _ _ (fun _ _ _ _ _ _ _ _ => rfl) (fun _ _ _ _ _ _ _ _ => rfl)
      fun _ _ _ _ _ _ _ _ => rfl)

theorem moving_sound : @SoundDigest sha moving 0 3 :=
  soundDigest 1 (fun _ => rfl) (fun _ => rfl) fun t => by
    by_cases ht : 1 < t
    · exact .inr (by simp [moving, world, ht])
    · exact .inl (by simp [moving, world, ht])

end Torn

/-- An attempt while the state is saved, a ticket is written and a commit is made: the snapshot shows
    the ticket and the head before the commit, which were there at one moment. -/
theorem collectStatusAttempt_moving :
    letI := Torn.sha
    letI := Torn.yaml
    ∃ snapshot, (collectStatusAttempt Torn.site true).Returns Torn.moving 0 snapshot 3
      ∧ snapshot.code.localHead = "p0"
      ∧ snapshot.counts = [(.backlog, 0), (.todo, 1), (.review, 0), (.accepted, 0), (.done, 0)]
      ∧ ∃ m, 0 ≤ m ∧ m ≤ 3 ∧ ∃ seen, Present Torn.site (Torn.moving m) seen
        ∧ seen.snapshot Torn.site true = .ok snapshot := by
  have hruns := @Runs.of_exec _ _ Torn.moving Torn.attempt.run Torn.movingWaits 0
  obtain ⟨hshown, hends⟩ := Torn.moving_shown
  rw [hends] at hruns
  obtain ⟨snapshot, hresult, heq⟩ := Option.map_eq_some_iff.mp hshown
  obtain ⟨hhead, hcounts⟩ := Prod.mk.inj heq
  rw [Loops.toOption_eq_some.mp hresult] at hruns
  exact ⟨snapshot, hruns, hhead, hcounts, @collectStatusAttempt_atOneMoment Torn.sha Torn.yaml _ _ _
    _ _ _ Torn.moving_writes Torn.moving_forward Torn.moving_sound Torn.moving_answers hruns⟩

/-- **Commit.** A ticket is written and committed while the attempt runs.  No head and no ticket file
    comes back to an earlier value, and yet the snapshot shows the ticket in a clean control checkout
    at the head before the commit. -/
theorem commit_tearsSnapshot :
    letI := Torn.sha
    letI := Torn.yaml
    (∀ t, Write (Torn.moment t) (Torn.moment (t + 1))) ∧ WritersForward Torn.moment 0 2
      ∧ SoundDigest Torn.moment 0 2
      ∧ ∃ snapshot, (collectStatusAttempt Torn.site true).Returns Torn.moment 0 snapshot 2
        ∧ ¬ ∃ m, 0 ≤ m ∧ m ≤ 2 ∧ ∃ seen, Present Torn.site (Torn.moment m) seen
          ∧ seen.snapshot Torn.site true = .ok snapshot := by
  obtain ⟨snapshot, hrun, hcontrol, hcounts⟩ := Torn.exists_run
  refine ⟨Torn.writes, Torn.forward, Torn.sound, snapshot, hrun, ?_⟩
  rintro ⟨m, -, hm, seen, hpresent, hsnapshot⟩
  exact Torn.not_present hm hpresent hsnapshot hcontrol hcounts

end Devlegate
