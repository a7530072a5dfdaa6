import Lancaster.Config.Json5
import Lancaster.Proofs.TextFiles
import Lancaster.Proofs.UnreadText
import Lancaster.Source.Rules

/-!
Rule files. Compiling a file while it is read comes to the same as compiling its text, wherever its
blocks begin. Blocks behind the one in which the compiler stops may hold anything; a block that
cannot be decoded counts only when the compiler comes to it.
-/
namespace Lancaster

structure Host.HoldsFile (h : Host) (path : Codes) (content : Bytes) : Prop where
  writable : path.unwritable? = none
  isPath : path.text.isPath = true
  content : h.files.readPath h.working path.text = .ok content

variable {h : Host} {path : Codes} {encoding t : Text} {e : Encoding} {content : Bytes}
  {d : Decoded} {o : Outcome}

theorem Host.HoldsFile.readNamed (hf : h.HoldsFile path content)
    (he : Encoding.named? encoding = some e) :
    h.readNamed path encoding = .ok (decodeFile e content) := by
  rw [Host.readNamed, hf.writable]
  exact Host.readText_of_named? he hf.isPath hf.content

theorem early_iff_stopped (t : Text) :
    (compileText t).Early ↔ ∃ rest, Compiler.start.read t = (.stopped (compileText t), rest) := by
  rcases hr : Compiler.start.read t with ⟨q, rest⟩
  cases q with
  | reading k =>
    have hfinish : compileText t = k.finish := by
      rw [compileText, compileStream, hr]
      rfl
    constructor
    · intro hearly
      rw [hfinish] at hearly
      exact absurd hearly k.finish_not_early
    · rintro ⟨u, hu⟩
      cases (Prod.mk.inj hu).1
  | stopped o =>
    have hstop : compileText t = o := compileText_of_stopped hr
    constructor
    · intro _
      exact ⟨rest, by rw [hstop]⟩
    · intro _
      obtain ⟨s, c, k, -, hs, hf⟩ := Compiler.exists_of_read_stopped hr
      obtain ⟨-, hk⟩ := Compiler.HasRead.start.read hs
      rw [hstop]
      exact (hk.settledBy (Compiler.stopsAt_of_feed hf)).early

theorem Compiler.read_append_of_stopped {k : Compiler} {rest : Text}
    (hr : k.read t = (.stopped o, rest)) (u : Text) :
    k.read (t ++ u) = (.stopped o, rest ++ u) := by
  obtain ⟨s, c, k', rfl, hs, hf⟩ := Compiler.exists_of_read_stopped hr
  rw [List.append_assoc, Compiler.read_append hs, List.cons_append, Compiler.read, hf]

theorem compileDecoded_whole (t : Text) : compileDecoded ⟨t, false⟩ = .ok (compileText t) := by
  rw [compileDecoded, compileText, compileStream]
  cases (Compiler.start.read t).1 <;> rfl

/-- Text that settles the outcome settles it whatever stands behind, decodable or not. -/
theorem compileDecoded_of_prefix (hearly : (compileText t).Early) (hd : t <+: d.text) :
    compileDecoded d = .ok (compileText t) := by
  obtain ⟨rest, hr⟩ := (early_iff_stopped t).mp hearly
  obtain ⟨u, hu⟩ := hd
  rw [compileDecoded, ← hu, Compiler.read_append_of_stopped hr]

theorem compileDecoded_broken (hearly : ¬ (compileText t).Early) :
    compileDecoded ⟨t, true⟩ = .error .undecodable := by
  rw [early_iff_stopped] at hearly
  rw [compileDecoded]
  rcases hr : Compiler.start.read t with ⟨q, rest⟩
  cases q with
  | reading k => rfl
  | stopped o =>
    rw [compileText_of_stopped hr] at hearly
    exact absurd ⟨rest, hr⟩ hearly

def loadedRules (path : Codes) : Outcome → Except RuleFileFault RuleTable × List Line
  | .ok c => (.ok c.table, [c.line, loadedLine c.table.size path])
  | .error f => (.error (.compile f), [])

theorem Host.HoldsFile.loadRules (hf : h.HoldsFile path content)
    (he : Encoding.named? encoding = some e)
    (hd : compileDecoded (decodeFile e content) = .ok o) :
    h.loadRules path encoding = loadedRules path o := by
  rw [Host.loadRules, Host.compileFile, hf.readNamed he]
  simp only [hd]
  cases o <;> rfl

theorem loadedRules_answer (path : Codes) (t : Text) :
    (loadedRules path (compileText t)).1 = (compile t).mapError .compile := by
  rw [compile]
  cases compileText t <;> rfl

/-- A rule file that spells a text is loaded as this text compiles, with line feeds for its line
ends. When the text of its first blocks settles the outcome, every file that begins with these
blocks is loaded alike. When it does not, and the next block cannot be decoded, the file is
unreadable. -/
theorem Host.loadRules_asText (he : Encoding.named? encoding = some e)
    (hf : h.HoldsFile path content) :
    (∀ t, e.Encodes t content →
      (h.loadRules path encoding).1 = (compile t.unifyLineEnds).mapError .compile) ∧
    ∀ k front rest t, content = front ++ rest → front.length = k * blockSize →
      e.textOf? front = some t →
      ((compileText t).Early →
        (h.loadRules path encoding).1 = (compile t).mapError .compile ∧
        ∀ h' rest', Host.HoldsFile h' path (front ++ rest') →
          h'.loadRules path encoding = h.loadRules path encoding) ∧
      (¬ (compileText t).Early → e.textOf? (front ++ rest.take blockSize) = none →
        (h.loadRules path encoding).1 = .error (.unreadable path .undecodable)) := by
  refine ⟨fun t ht => ?_, ?_⟩
  · have hd : compileDecoded (decodeFile e content) = .ok (compileText t.unifyLineEnds) := by
      rw [decodeFile_of_encodes ht, compileDecoded_whole]
    rw [hf.loadRules he hd, loadedRules_answer]
  · rintro k front rest t rfl hfront htext
    refine ⟨fun hearly => ?_, fun hearly hrest => ?_⟩
    · have hany : ∀ (h' : Host) (rest' : Bytes), h'.HoldsFile path (front ++ rest') →
          h'.loadRules path encoding = loadedRules path (compileText t) := by
        intro h' rest' hf'
        apply hf'.loadRules he
        exact compileDecoded_of_prefix hearly (textOf?_prefix_decodeFile hfront htext rest')
      refine ⟨?_, fun h' rest' hf' => ?_⟩
      · rw [hany h rest hf, loadedRules_answer]
      · rw [hany h' rest' hf', hany h rest hf]
    · have hd := compileDecoded_broken hearly
      rw [← decodeFile_of_undecodable hfront htext hrest] at hd
      rw [Host.loadRules, Host.compileFile, hf.readNamed he]
      simp only [hd]

def ruleAndEnd : Text := "s1.\r\nend0.".toList

def closedText (spaces : Nat) : Text := ruleAndEnd ++ List.replicate spaces ' '

def closedBytes (spaces : Nat) : Bytes := (closedText spaces).flatMap String.utf8EncodeChar

def ruleHost (content : Bytes) : Host :=
  { bareHost with files := ⟨[(["r".toList], .file content 0)]⟩ }

theorem ruleHost_holdsFile (content : Bytes) :
    (ruleHost content).HoldsFile (Text.codes "/r".toList) content where
  writable := by decide
  isPath := by decide
  content := rfl

theorem length_closedBytes (n : Nat) : (closedBytes n).length = 10 + n := by
  have hspaces : ((List.replicate n ' ').flatMap String.utf8EncodeChar).length = n := by
    induction n with
    | zero => rfl
    | succ n ih =>
      rw [List.replicate_succ, List.flatMap_cons, List.length_append, ih, Nat.add_comm]
      rfl
  have hrules : (ruleAndEnd.flatMap String.utf8EncodeChar).length = 10 := by decide
  rw [closedBytes, closedText, List.flatMap_append, List.length_append, hspaces, hrules]

theorem closedText_early (n : Nat) : (compileText (closedText n).unifyLineEnds).Early := by
  have hany : ∀ u : Text, ∃ rules,
      compileText (Text.unifyLineEnds (ruleAndEnd ++ u)) = .ok ⟨rules, true⟩ := by
    intro u
    exact ⟨_, rfl⟩
  obtain ⟨rules, hrules⟩ := hany (List.replicate n ' ')
  rw [closedText, hrules]
  exact .closed rules

theorem textOf?_closedBytes (n : Nat) :
    Encoding.textOf? .utf8 (closedBytes n) = some (closedText n).unifyLineEnds := by
  apply (Encoding.Encodes.utf8 (closedText n)).textOf?
  intro hlast
  have hmem : '\r' ∈ (closedText n).getLast? := hlast
  cases n with
  | zero => exact absurd hmem (by decide)
  | succ n =>
    rw [closedText, List.replicate_succ', ← List.append_assoc, List.getLast?_concat] at hmem
    exact absurd hmem (by decide)

/-- Bytes that spell nothing, behind a block that closes the rules, make no difference. -/
theorem Host.loadRules_asText_closed :
    Encoding.named? defaultEncoding = some .utf8 ∧
      (ruleHost (closedBytes 8182 ++ [0xFF])).HoldsFile (Text.codes "/r".toList)
        (closedBytes 8182 ++ [0xFF]) ∧
      ((ruleHost (closedBytes 8182 ++ [0xFF])).loadRules (Text.codes "/r".toList)
        defaultEncoding).1 = (compile (closedText 8182).unifyLineEnds).mapError .compile ∧
      ∀ rest, (ruleHost (closedBytes 8182 ++ rest)).loadRules (Text.codes "/r".toList)
          defaultEncoding =
        (ruleHost (closedBytes 8182 ++ [0xFF])).loadRules (Text.codes "/r".toList)
          defaultEncoding := by
  have he : Encoding.named? defaultEncoding = some .utf8 := by decide
  have hlength : (closedBytes 8182).length = 1 * blockSize := length_closedBytes 8182
  have hf := ruleHost_holdsFile (closedBytes 8182 ++ [0xFF])
  obtain ⟨-, hblocks⟩ := Host.loadRules_asText he hf
  obtain ⟨hearly, -⟩ := hblocks 1 (closedBytes 8182) [0xFF] _ rfl hlength (textOf?_closedBytes 8182)
  obtain ⟨hloads, hany⟩ := hearly (closedText_early 8182)
  exact ⟨he, hf, hloads, fun rest => hany _ rest (ruleHost_holdsFile (closedBytes 8182 ++ rest))⟩

end Lancaster
