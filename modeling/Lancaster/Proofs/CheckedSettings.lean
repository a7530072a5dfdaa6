import Lancaster.Proofs.CommandFaults
import Lancaster.Proofs.ConfigHistory

/-!
Checked settings. Loading settings gives what the object of the settings file spells, with the rules
file joined to the data directory, and refuses any other object. Under settings that were loaded,
stemming fails for words that are too long, where such words are refused, and for nothing else.
-/
namespace Lancaster

def Settings.joinedTo (s : Settings) (dir : Location) : Settings :=
  { s with rulesFile := s.rulesFile.map (rulesPath dir) }

def settingsLocation (dir : Location) : Location := dir ++ [configFileName settingsFile]

/-- The settings file in the data directory parses to an object. What is remembered of the file, if
anything, is what reading it gives. -/
structure Host.HoldsSettings (h : Host) (cache : ConfigCache) (base : Option Text)
    (dir : Location) (d : ConfigObject) : Prop where
  placed : h.Placed
  dataDir : h.dataDir base = .ok dir
  parsed : ∃ content t, h.files.content (settingsLocation dir) = .ok content ∧
    h.decodeAs defaultEncoding content = .ok ⟨t, false⟩ ∧ h.parser t = .ok (.object d)
  remembered : ∀ k o,
    h.configKey settingsFile base defaultEncoding (some settingsValidator) = .ok k →
    cache.lookup k = some o → h.readConfig k.path defaultEncoding (some settingsValidator) = .ok o

def Settings.Refuses (s : Settings) (w : Word) : Prop :=
  s.overflow = .reject ∧ ∃ n, s.maxLength = some n ∧ n < w.length

/-- Where the run of a word ends, the word has a stem unless it is refused, and it is refused for
its length. -/
def Settings.Sufficient (s : Settings) : Prop :=
  ∀ (t : RuleTable) (w : Word) (traced : Bool), ¬ t.RunsForEver s.limits traced w →
    ∃ a, t.Answers s.limits traced w a ∧ ((∃ f, a = .error f) ↔ s.Refuses w) ∧
      ∀ f, a = .error f → ∃ n, s.maxLength = some n ∧ f = .tooLong w.length n

variable {d : ConfigObject} {s : Settings} {h : Host} {cache : ConfigCache} {base : Option Text}
  {dir : Location} {w : Word} {l : Limits}

theorem configLocation_settings (hdir : dir.Proper) :
    configLocation dir settingsFile = settingsLocation dir := by
  have hname : IsName (configFileName settingsFile) :=
    ⟨by decide, by decide, by decide, by decide⟩
  rw [configLocation_eq hdir, reduced_joinedText hdir (by decide),
    cutAt_of_not_mem hname.noSlash, hname.meaningful_cons, meaningful_nil, hname.follow_eq]
  rfl

theorem Host.HoldsSettings.exists_key (hd : h.HoldsSettings cache base dir d) :
    ∃ k, h.configKey settingsFile base defaultEncoding (some settingsValidator) = .ok k ∧
      k.path = settingsLocation dir := by
  obtain ⟨content, -, hcontent, -, -⟩ := hd.parsed
  obtain ⟨time, hstat⟩ := FileTree.content_eq_ok_iff.mp hcontent
  have hplace := configLocation_settings (hd.placed.dataDir hd.dataDir)
  have hwithin : (settingsLocation dir).within dir = true :=
    List.isPrefixOf_iff_prefix.mpr (List.prefix_append dir _)
  refine ⟨⟨settingsLocation dir, time, defaultEncoding, some settingsValidator.name⟩, ?_, rfl⟩
  rw [Host.configKey_eq hd.dataDir (by decide), hplace, if_pos hwithin, hstat]
  rfl

theorem Host.HoldsSettings.readConfig_eq (hd : h.HoldsSettings cache base dir d) :
    h.readConfig (settingsLocation dir) defaultEncoding (some settingsValidator) =
      match Settings.ofObject d with
      | .ok _ => .ok d
      | .error f => .error (.refused (configFileName settingsFile) f.message) := by
  obtain ⟨content, t, hcontent, hdecoded, hparse⟩ := hd.parsed
  have hname : (settingsLocation dir).name = configFileName settingsFile := by
    rw [settingsLocation, Location.name, List.getLast?_concat, Option.getD_some]
  have hvalue : h.readValue (settingsLocation dir) defaultEncoding = .ok (.object d) := by
    rw [Host.readValue, Encoding.contains_of_named? named?_defaultEncoding, hcontent]
    simp only [Bool.false_eq_true, if_false, hdecoded, Host.parseDecoded, hparse]
  rw [← hname, Host.readConfig, hvalue, Except.bind, checkedObject, settingsValidator_check]
  cases Settings.ofObject d with
  | ok _ => rfl
  | error f => rfl

theorem Host.HoldsSettings.settingsOf_eq (hd : h.HoldsSettings cache base dir d)
    (hs : Settings.ofObject d = .ok s) : h.settingsOf base d = .ok (s.joinedTo dir) := by
  obtain ⟨rulesFile, maxLength, overflow, cacheSize, workers⟩ := s
  rw [Host.settingsOf, hs]
  cases rulesFile with
  | none => rfl
  | some file =>
    simp only [pure_bind, hd.dataDir]
    rfl

/-- What is remembered has no say: the object of the file makes the settings or is refused. -/
theorem Host.HoldsSettings.loadSettings_eq (hd : h.HoldsSettings cache base dir d) :
    (h.loadSettings cache base).answer =
      match Settings.ofObject d with
      | .ok s => .ok (s.joinedTo dir)
      | .error f => .error (.refused (configFileName settingsFile) f.message) := by
  obtain ⟨k, hk, hpath⟩ := hd.exists_key
  have hloads := h.loads cache settingsFile base defaultEncoding (some settingsValidator)
  have hobject := hloads.object_eq hk fun o ho => hd.remembered k o hk ho
  have hbind : (h.loadSettings cache base).answer =
      (h.readConfig (settingsLocation dir) defaultEncoding (some settingsValidator)).bind
        (h.settingsOf base) := by
    rw [← hpath, ← hobject, Host.loadSettings]
    cases (h.loadConfig cache settingsFile base defaultEncoding (some settingsValidator)).answer
    · rfl
    · rfl
  rw [hbind, hd.readConfig_eq]
  cases hs : Settings.ofObject d with
  | error f => rfl
  | ok s => exact hd.settingsOf_eq hs

theorem Limits.fit_eq_error_iff {f : StemFault}
    (hl : l.overflow = .truncate ∨ l.overflow = .reject) :
    l.fit w = .error f ↔ l.overflow = .reject ∧
      ∃ n, l.maxLength = some n ∧ n < w.length ∧ f = .tooLong w.length n := by
  rw [Limits.fit]
  cases hm : l.maxLength with
  | none => simp
  | some n =>
    by_cases hn : (w.length : Int) ≤ n
    · simp [hn]
    · have hlong : n < w.length := by omega
      rcases hl with hl | hl
      · simp [hn, hl]
      · simp [hn, hl, hlong, eq_comm]

theorem Settings.Valid.sufficient (hs : s.Valid) : s.Sufficient := by
  intro t w traced hends
  have hend : ¬ t.RunsForEver s.limits false w := by
    rw [RuleTable.runsForEver_iff] at hends ⊢
    exact hends
  obtain ⟨enough, henough⟩ := RuleTable.exists_enough hend
  have hcomes := henough enough le_rfl
  generalize t.run s.limits enough w = o at hcomes
  refine ⟨o.map fun r => r.result traced, RuleTable.answers_iff.mpr ⟨o, hcomes, rfl⟩, ?_⟩
  have hfit : ∀ f, s.limits.fit w = .error f ↔ s.overflow = .reject ∧
      ∃ n, s.maxLength = some n ∧ n < w.length ∧ f = .tooLong w.length n :=
    fun f => Limits.fit_eq_error_iff hs.overflow
  have hfits : ∀ u, s.limits.fit w = .ok u → ¬ s.Refuses w := by
    rintro u hu ⟨hreject, n, hn, hlong⟩
    have hrefused := (hfit (.tooLong w.length n)).mpr ⟨hreject, n, hn, hlong, rfl⟩
    rw [hu] at hrefused
    cases hrefused
  cases hcomes with
  | @refused f hf =>
    obtain ⟨hreject, n, hn, hlong, hf⟩ := (hfit f).mp hf
    refine ⟨⟨fun _ => ⟨hreject, n, hn, hlong⟩, fun _ => ⟨f, rfl⟩⟩, ?_⟩
    intro g hg
    obtain rfl : f = g := Except.error.inj hg
    exact ⟨n, hn, hf⟩
  | @kept u hu _ =>
    exact ⟨⟨nofun, fun hrefused => absurd hrefused (hfits u hu)⟩, nofun⟩
  | @ended u _ hu _ _ =>
    exact ⟨⟨nofun, fun hrefused => absurd hrefused (hfits u hu)⟩, nofun⟩

/-- Loading settings gives what the object of the settings file spells, its rules file joined to the
data directory, and refuses every object that spells no settings. The settings that it gives leave
the length of a word as the only thing that can make stemming fail. -/
theorem Host.loadSettings_exact (hd : h.HoldsSettings cache base dir d) :
    (∀ s, (h.loadSettings cache base).answer = .ok s ↔
      ∃ own : Settings, own.SpelledBy d ∧ s = own.joinedTo dir) ∧
    ((¬ ∃ own : Settings, own.SpelledBy d) → ∃ f : SettingsFault,
      (h.loadSettings cache base).answer =
        .error (.refused (configFileName settingsFile) f.message)) ∧
    ∀ s, (h.loadSettings cache base).answer = .ok s → s.Sufficient := by
  rw [hd.loadSettings_eq]
  cases hobject : Settings.ofObject d with
  | error f =>
    have hnone : ¬ ∃ own : Settings, own.SpelledBy d := by
      rintro ⟨own, hown⟩
      rw [Settings.ofObject_eq_ok_iff.mpr hown] at hobject
      cases hobject
    refine ⟨fun s => ⟨nofun, ?_⟩, fun _ => ⟨f, rfl⟩, nofun⟩
    rintro ⟨own, hown, -⟩
    exact absurd ⟨own, hown⟩ hnone
  | ok own =>
    have hspelled := Settings.ofObject_eq_ok_iff.mp hobject
    refine ⟨fun s => ⟨?_, ?_⟩, fun hnone => absurd ⟨own, hspelled⟩ hnone, ?_⟩
    · intro hs
      exact ⟨own, hspelled, (Except.ok.inj hs).symm⟩
    · rintro ⟨other, hother, rfl⟩
      have hsame := Settings.ofObject_eq_ok_iff.mpr hother
      obtain rfl : own = other := Except.ok.inj (hobject.symm.trans hsame)
      rfl
    · intro s hs
      obtain rfl := Except.ok.inj hs
      exact (Host.valid_of_settingsOf (hd.settingsOf_eq hobject)).sufficient

/-- Short words only: `{"max_length":3,"overflow":"reject"}`. -/
def shortText : Text :=
  ['\x7b', '"', 'm', 'a', 'x', '_', 'l', 'e', 'n', 'g', 't', 'h', '"', ':', '3', ',', '"', 'o', 'v',
    'e', 'r', 'f', 'l', 'o', 'w', '"', ':', '"', 'r', 'e', 'j', 'e', 'c', 't', '"', '\x7d']

def shortObject : ConfigObject :=
  [(maxLengthKey.codes, .int 3), (overflowKey.codes, .string (Text.codes "reject".toList))]

def shortSettings : Settings := { maxLength := some 3, overflow := .reject }

def shortHost : Host :=
  { bareHost with
    files := ⟨[([['d']], .directory 0), (settingsLocation [['d']],
      .file (shortText.map fun c => c.toNat.toUInt8) 0)]⟩ }

theorem shortHost_holdsSettings :
    shortHost.HoldsSettings [] (some ['/', 'd']) [['d']] shortObject where
  placed := ⟨Location.proper_nil, Location.proper_nil⟩
  dataDir := by decide
  parsed := by
    refine ⟨shortText.map fun c => c.toNat.toUInt8, shortText, ?_, rfl, rfl⟩
    decide
  remembered := nofun

theorem shortSettings_spelledBy : shortSettings.SpelledBy shortObject where
  keys := by decide
  rulesFile := .missing rfl
  maxLength := .given rfl (.value (.int (by decide)))
  overflow := .given rfl .reject
  cacheSize := .missing rfl
  workers := .missing rfl

theorem Host.loadSettings_exact_short :
    shortHost.HoldsSettings [] (some ['/', 'd']) [['d']] shortObject ∧
      (shortHost.loadSettings [] (some ['/', 'd'])).answer = .ok shortSettings ∧
      shortSettings.Sufficient ∧ shortSettings.Refuses "four".toList := by
  have hd := shortHost_holdsSettings
  obtain ⟨hanswer, -, hsufficient⟩ := Host.loadSettings_exact hd
  have hloaded := (hanswer shortSettings).mpr ⟨shortSettings, shortSettings_spelledBy, rfl⟩
  exact ⟨hd, hloaded, hsufficient _ hloaded, rfl, 3, rfl, by decide⟩

end Lancaster
