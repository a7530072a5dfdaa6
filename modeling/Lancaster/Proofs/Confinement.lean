import Lancaster.Config.Json5
import Lancaster.Config.Load
import Lancaster.Proofs.NormalForms

/-!
Confined configs. A config is refused just when the normal form of its path does not lie in the
data directory, part by part, and whatever is remembered has no say in it. A config that is given
is read from the file at that normal form, or was remembered under it.
-/
namespace Lancaster

/-- The places that the host is at have names only. -/
structure Host.Placed (h : Host) : Prop where
  working : h.working.Proper
  site : h.site.Proper

def ConfigReply.Refused (r : ConfigReply) : Prop := ∃ path, r.answer = .error (.outside path)

/-- What is given is remembered under the place, or it is read from the file that stands there. -/
def Host.GivesFrom (h : Host) (cache : ConfigCache) (place : Location) (encoding : Text)
    (v : Option Validator) (o : Loaded) : Prop :=
  (∃ k, k.path = place ∧ cache.lookup k = some o.object) ∨
    (∃ content time, h.files.node? place = some (.file content time)) ∧
      h.readConfig place encoding v = .ok o.object

inductive Host.Unread (h : Host) (place : Location) (encoding : Text) : ConfigFault → Prop where
  | malformed : Unread h place encoding (.malformed place)
  | unreadable {f : FileFault} : Unread h place encoding (.unreadable place f)
  | unknownEncoding {content : Bytes} {f : ReadFault}
      (hd : h.decodeAs encoding content = .error f) :
      Unread h place encoding (.unknownEncoding encoding)
  | gaveUp {content : Bytes} {t reason : Text} (hc : h.files.content place = .ok content)
      (hd : h.decodeAs encoding content = .ok ⟨t, false⟩)
      (hp : h.parser t = .error (.gaveUp reason)) : Unread h place encoding (.gaveUp reason)

inductive CheckFault (name : Text) (v : Option Validator) : ConfigFault → Prop where
  | notObject {typeName : Text} : CheckFault name v (.notObject name typeName)
  | refused {reason : Codes} : CheckFault name v (.refused name reason)
  | missingKey {w : Validator} {o : ConfigObject} {key : Text} (hv : v = some w)
      (hkey : w.check o = .error (.missingKey key)) : CheckFault name v (.missingKey key)

/-- A reply that keeps to a data directory, when the path of the file has this normal form. The
parts count and not their letters: a directory whose name goes on after that of the data directory
is outside, and a name that goes up and comes back is inside. -/
structure ConfigReply.Confined (r : ConfigReply) (dir place : Location) (file : Text) : Prop where
  refused_iff : r.Refused ↔ ¬ dir <+: place
  path : ∀ path, r.answer = .error (.outside path) → path = place
  beside : ∀ above own more last, dir = above ++ [own] → more ≠ [] → '/' ∉ more → IsName last →
    configFileName file = upPart ++ '/' :: (own ++ more ++ '/' :: last) → r.Refused
  back : ∀ above own last, dir = above ++ [own] → IsName last →
    configFileName file = upPart ++ '/' :: (own ++ '/' :: last) → ¬ r.Refused

variable {h : Host} {base : Option Text} {file encoding : Text} {v : Option Validator}
  {dir place l : Location} {cache : ConfigCache} {k : ConfigKey} {f : ConfigFault} {t : FileTree}
  {n : Node} {parts : List Text} {start : Location}

theorem Location.Proper.follow {start : Location} (hs : start.Proper) (t : Text) :
    (start.follow (PathText.ofList t).parts).Proper :=
  (steps_to_follow hs fun _ hpart => not_mem_of_mem_cutAt hpart).2

theorem Host.Placed.resolve (hp : h.Placed) (t : Text) : (h.resolve t).Proper := by
  unfold Host.resolve PathText.resolve
  split
  · exact hp.working.follow t
  · exact Location.proper_nil.follow t

theorem Host.Placed.directory (hp : h.Placed) {t : Text} (hd : h.directory t = .ok dir) :
    dir.Proper := by
  unfold Host.directory at hd
  split at hd
  · obtain rfl := Except.ok.inj hd
    exact hp.resolve t
  · cases hd

theorem FileTree.mem_of_firstDirectory {candidates : List Location}
    (hf : t.firstDirectory candidates = .ok (some l)) : l ∈ candidates := by
  induction candidates with
  | nil => cases hf
  | cons c candidates ih =>
    rw [FileTree.firstDirectory] at hf
    split at hf
    · obtain rfl := Option.some.inj (Except.ok.inj hf)
      exact List.mem_cons_self
    · cases hf
    · exact List.mem_cons_of_mem c (ih hf)

theorem Host.Placed.siteDataDir (hp : h.Placed) (hd : h.siteDataDir = .ok dir) : dir.Proper := by
  unfold Host.siteDataDir at hd
  split at hd
  · rename_i found hfound
    obtain rfl := Except.ok.inj hd
    obtain ⟨above, habove, rfl⟩ := List.mem_map.mp (FileTree.mem_of_firstDirectory hfound)
    obtain ⟨k, -, rfl⟩ := List.mem_map.mp (List.mem_reverse.mp habove)
    have htaken : Location.Proper (h.site.take k) :=
      fun part hpart => hp.site part (List.mem_of_mem_take hpart)
    exact htaken.append_singleton ⟨by decide, by decide, by decide, by decide⟩
  · cases hd
  · cases hd

theorem Host.Placed.dataDir (hp : h.Placed) (hd : h.dataDir base = .ok dir) : dir.Proper := by
  unfold Host.dataDir at hd
  split at hd
  · exact hp.directory hd
  · split at hd
    · exact hp.siteDataDir hd
    · exact hp.siteDataDir hd
    · exact hp.directory hd

theorem configLocation_eq (hd : dir.Proper) (file : Text) :
    configLocation dir file = reduced (cutAt '/' (joinedText dir (configFileName file))) :=
  PathText.resolve_join hd (configFileName file) []

theorem Host.configKey_eq (hd : h.dataDir base = .ok dir) (hf : file.isPath = true) :
    h.configKey file base encoding v =
      if (configLocation dir file).within dir then
        match h.files.stat (configLocation dir file) with
        | .error _ => .error (.missing (configLocation dir file))
        | .ok n => .ok ⟨configLocation dir file, n.time, encoding, v.map Validator.name⟩
      else .error (.outside (configLocation dir file)) := by
  simp only [Host.configKey, hd, hf, bind, Except.bind, Bool.not_true, Bool.false_eq_true, if_false]
  cases (configLocation dir file).within dir with
  | false => rfl
  | true => cases h.files.stat (configLocation dir file) <;> rfl

theorem Host.configKey_eq_outside_iff (hd : h.dataDir base = .ok dir) (hf : file.isPath = true) :
    h.configKey file base encoding v = .error (.outside l) ↔
      l = configLocation dir file ∧ ¬ dir <+: l := by
  rw [Host.configKey_eq hd hf]
  have hwithin : (configLocation dir file).within dir = true ↔ dir <+: configLocation dir file :=
    List.isPrefixOf_iff_prefix
  split
  · rename_i hin
    have hprefix := hwithin.mp hin
    constructor
    · intro heq
      split at heq <;> cases heq
    · rintro ⟨rfl, hout⟩
      exact absurd hprefix hout
  · rename_i hout
    rw [hwithin] at hout
    constructor
    · intro heq
      obtain rfl := ConfigFault.outside.inj (Except.error.inj heq)
      exact ⟨rfl, hout⟩
    · rintro ⟨rfl, -⟩
      rfl

theorem Host.configKey_spec (hk : h.configKey file base encoding v = .ok k) :
    ∃ n, h.files.stat k.path = .ok n ∧ k.time = n.time ∧ k.encoding = encoding ∧
      k.validator = v.map Validator.name ∧
      ∀ dir, h.dataDir base = .ok dir → k.path = configLocation dir file ∧ dir <+: k.path := by
  cases hd : h.dataDir base with
  | error f =>
    rw [Host.configKey, hd] at hk
    cases hk
  | ok dir =>
    cases hf : file.isPath with
    | false =>
      simp [Host.configKey, hd, hf, bind, Except.bind, throw, throwThe, MonadExceptOf.throw] at hk
    | true =>
      rw [Host.configKey_eq hd hf] at hk
      split at hk
      · rename_i hin
        split at hk
        · cases hk
        · rename_i n hn
          obtain rfl := Except.ok.inj hk
          refine ⟨n, hn, rfl, rfl, rfl, fun dir' hdir' => ?_⟩
          obtain rfl := Except.ok.inj hdir'
          exact ⟨rfl, List.isPrefixOf_iff_prefix.mp hin⟩
      · cases hk

theorem FileTree.enter_eq {part : Text} (he : t.enter start part = .ok l) :
    l = start.follow (meaningful [part]) := by
  unfold FileTree.enter at he
  split at he
  · cases he
  · cases he
  · split at he
    · cases he
    · obtain rfl := Except.ok.inj he
      by_cases hpart : part = dotPart ∨ part = []
      · rw [if_pos hpart]
        rcases hpart with rfl | rfl <;> simp
      · obtain ⟨hdot, hnil⟩ := not_or.mp hpart
        rw [if_neg hpart]
        simp [meaningful, hdot, hnil]

/-- Whatever the tree holds, parts can lead to one location only. -/
theorem FileTree.locate_eq (hl : t.locate start parts = .ok l) :
    l = start.follow (meaningful parts) := by
  induction parts generalizing start with
  | nil =>
    obtain rfl := Except.ok.inj hl
    simp
  | cons part parts ih =>
    rw [FileTree.locate, List.foldlM_cons] at hl
    cases he : t.enter start part with
    | error f =>
      rw [he] at hl
      cases hl
    | ok next =>
      rw [he] at hl
      have hsplit : meaningful (part :: parts) = meaningful [part] ++ meaningful parts :=
        meaningful_append [part] parts
      rw [hsplit, Location.follow_append, ← FileTree.enter_eq he]
      exact ih hl

theorem FileTree.stat_eq (hs : t.stat l = .ok n) : t.node? (reduced l) = some n := by
  unfold FileTree.stat at hs
  split at hs
  · cases hs
  · cases hl : t.locate [] l with
    | error f =>
      rw [hl] at hs
      cases hs
    | ok found =>
      rw [hl] at hs
      simp only [bind, Except.bind] at hs
      rw [reduced, ← FileTree.locate_eq hl]
      split at hs
      · rename_i hn
        obtain rfl := Except.ok.inj hs
        exact hn
      · cases hs

theorem FileTree.content_eq_ok_iff {content : Bytes} :
    t.content l = .ok content ↔ ∃ time, t.stat l = .ok (.file content time) := by
  unfold FileTree.content
  cases hs : t.stat l with
  | error f => simp [bind, Except.bind]
  | ok n =>
    cases n with
    | directory =>
      simp [bind, Except.bind, throw, throwThe, MonadExceptOf.throw]
    | file own time => simp [bind, Except.bind, pure, Except.pure]

theorem Host.readValue_ok {value : ConfigValue} (hr : h.readValue l encoding = .ok value) :
    ∃ content, h.files.content l = .ok content := by
  unfold Host.readValue at hr
  split at hr
  · cases hr
  · split at hr
    · cases hr
    · rename_i content hc
      exact ⟨content, hc⟩

theorem Host.readValue_error (hr : h.readValue l encoding = .error f) :
    h.Unread l encoding f := by
  unfold Host.readValue at hr
  split at hr
  · obtain rfl := Except.error.inj hr
    exact .malformed
  · split at hr
    · obtain rfl := Except.error.inj hr
      exact .unreadable
    · rename_i content hc
      split at hr
      · rename_i hd
        obtain rfl := Except.error.inj hr
        exact .unknownEncoding hd
      · rename_i d hd
        split at hr
        · cases hr
        · obtain rfl := Except.error.inj hr
          exact .malformed
        · rename_i reason hp
          obtain rfl := Except.error.inj hr
          obtain ⟨t, broken⟩ := d
          cases broken with
          | true => cases hp
          | false => exact .gaveUp hc hd hp

theorem CheckFault.of_checkedObject {name : Text} {value : ConfigValue}
    (hc : checkedObject name v value = .error f) : CheckFault name v f := by
  unfold checkedObject at hc
  split at hc
  · split at hc
    · cases hc
    · rename_i w
      split at hc
      · cases hc
      · obtain rfl := Except.error.inj hc
        exact .refused
      · rename_i key hkey
        obtain rfl := Except.error.inj hc
        exact .missingKey rfl hkey
  · obtain rfl := Except.error.inj hc
    exact .notObject

theorem Host.content_of_readConfig {o : ConfigObject}
    (hr : h.readConfig l encoding v = .ok o) : ∃ content, h.files.content l = .ok content := by
  obtain ⟨value, hvalue, -⟩ := exists_of_bind_eq_ok hr
  exact Host.readValue_ok hvalue

theorem Host.readConfig_error (hr : h.readConfig l encoding v = .error f) :
    h.Unread l encoding f ∨ CheckFault l.name v f := by
  rcases of_bind_eq_error hr with hvalue | ⟨value, -, hcheck⟩
  · exact .inl (Host.readValue_error hvalue)
  · exact .inr (.of_checkedObject hcheck)

theorem Host.readConfig_ne_outside (h : Host) (l : Location) (encoding : Text)
    (v : Option Validator) (place : Location) :
    h.readConfig l encoding v ≠ .error (.outside place) := by
  intro hr
  rcases Host.readConfig_error hr with hunread | hcheck
  · cases hunread
  · cases hcheck

inductive Host.Loads (h : Host) (cache : ConfigCache) (file : Text) (base : Option Text)
    (encoding : Text) (v : Option Validator) : ConfigReply → Prop where
  | unplaced {f : ConfigFault} (hk : h.configKey file base encoding v = .error f) :
      Loads h cache file base encoding v ⟨.error f, [], cache⟩
  | remembered {k : ConfigKey} {o : ConfigObject} (hk : h.configKey file base encoding v = .ok k)
      (hc : cache.lookup k = some o) :
      Loads h cache file base encoding v ⟨.ok ⟨o, true⟩, [configLine true k.path], cache⟩
  | unread {k : ConfigKey} {f : ConfigFault} (hk : h.configKey file base encoding v = .ok k)
      (hc : cache.lookup k = none) (hr : h.readConfig k.path encoding v = .error f) :
      Loads h cache file base encoding v ⟨.error f, [], cache⟩
  | read {k : ConfigKey} {o : ConfigObject} (hk : h.configKey file base encoding v = .ok k)
      (hc : cache.lookup k = none) (hr : h.readConfig k.path encoding v = .ok o) :
      Loads h cache file base encoding v
        ⟨.ok ⟨o, false⟩, [configLine false k.path], (k, o) :: cache⟩

theorem Host.loads (h : Host) (cache : ConfigCache) (file : Text) (base : Option Text)
    (encoding : Text) (v : Option Validator) :
    h.Loads cache file base encoding v (h.loadConfig cache file base encoding v) := by
  unfold Host.loadConfig
  split
  · rename_i f hk
    exact .unplaced hk
  · rename_i k hk
    split
    · rename_i o hc
      exact .remembered hk hc
    · rename_i hc
      split
      · rename_i f hr
        exact .unread hk hc hr
      · rename_i o hr
        exact .read hk hc hr

variable {r : ConfigReply}

theorem Host.Loads.eq_outside_iff (hl : h.Loads cache file base encoding v r) :
    r.answer = .error (.outside l) ↔ h.configKey file base encoding v = .error (.outside l) := by
  cases hl with
  | unplaced hk => simp [hk]
  | remembered hk hc => simp [hk]
  | @unread k f hk hc hr =>
    have hne := h.readConfig_ne_outside k.path encoding v l
    rw [hr] at hne
    simpa [hk] using hne
  | read hk hc hr => simp [hk]

theorem Host.Loads.eq_ok {o : Loaded} (hl : h.Loads cache file base encoding v r)
    (ho : r.answer = .ok o) :
    ∃ k, h.configKey file base encoding v = .ok k ∧
      (cache.lookup k = some o.object ∨ h.readConfig k.path encoding v = .ok o.object) := by
  cases hl with
  | unplaced hk => cases ho
  | @remembered k own hk hc =>
    obtain rfl := Except.ok.inj ho
    exact ⟨k, hk, .inl hc⟩
  | unread hk hc hr => cases ho
  | @read k own hk hc hr =>
    obtain rfl := Except.ok.inj ho
    exact ⟨k, hk, .inr hr⟩

theorem Host.refused_iff (hp : h.Placed) (hd : h.dataDir base = .ok dir)
    (hf : file.isPath = true)
    (hplace : place = reduced (cutAt '/' (joinedText dir (configFileName file)))) :
    (h.loadConfig cache file base encoding v).answer = .error (.outside l) ↔
      l = place ∧ ¬ dir <+: l := by
  have hdir := hp.dataDir hd
  rw [(h.loads cache file base encoding v).eq_outside_iff, Host.configKey_eq_outside_iff hd hf,
    configLocation_eq hdir, hplace]

/-- A name that only begins with the name of a directory is another name. -/
theorem IsName.append {own more : Text} (h : IsName own) (hm : '/' ∉ more) (hne : more ≠ []) :
    IsName (own ++ more) := by
  have hown := List.length_pos_iff.mpr h.ne_nil
  have hmore := List.length_pos_iff.mpr hne
  refine ⟨by simp [h.ne_nil], ?_, ?_, ?_⟩
  · intro hdot
    have hlen := congrArg List.length hdot
    simp only [List.length_append, dotPart, List.length_singleton] at hlen
    omega
  · intro hup
    obtain ⟨c, own, rfl⟩ := List.exists_cons_of_ne_nil h.ne_nil
    have hlen := congrArg List.length hup
    simp only [List.length_append, List.length_cons, upPart, List.length_nil] at hlen hmore
    obtain rfl : own = [] := List.length_eq_zero_iff.mp (by omega)
    have hc : c = '.' := (List.cons.inj hup).1
    exact h.ne_dot (by rw [hc]; rfl)
  · simp [h.noSlash, hm]

theorem Host.confined (hp : h.Placed) (hd : h.dataDir base = .ok dir) (hf : file.isPath = true)
    (hplace : place = reduced (cutAt '/' (joinedText dir (configFileName file)))) :
    (h.loadConfig cache file base encoding v).Confined dir place file := by
  have hdir := hp.dataDir hd
  have hout : ∀ l, (h.loadConfig cache file base encoding v).answer = .error (.outside l) ↔
      l = place ∧ ¬ dir <+: l := fun l => Host.refused_iff hp hd hf hplace
  have hrefused : (h.loadConfig cache file base encoding v).Refused ↔ ¬ dir <+: place := by
    unfold ConfigReply.Refused
    simp only [hout, exists_eq_left]
  refine ⟨hrefused, fun l hl => ((hout l).mp hl).1, ?_, ?_⟩
  · intro above own more last hown hne hmore hlast hname
    have hownName : IsName own := hdir own (by rw [hown]; simp)
    rw [hrefused, hplace, hname, reduced_joinedText_through hdir (hownName.append hmore hne) hlast,
      hown, List.dropLast_concat, List.prefix_append_right_inj]
    rintro ⟨rest, hrest⟩
    have heq : own = own ++ more := (List.cons.inj hrest).1
    exact hne (List.self_eq_append_right.mp heq)
  · intro above own last hown hlast hname
    have hownName : IsName own := hdir own (by rw [hown]; simp)
    rw [hrefused, hplace, hname, reduced_joinedText_through hdir hownName hlast, hown,
      List.dropLast_concat, List.prefix_append_right_inj]
    exact fun hout => hout ⟨[last], rfl⟩

theorem Host.givesFrom (hp : h.Placed) (hd : h.dataDir base = .ok dir)
    (hplace : place = reduced (cutAt '/' (joinedText dir (configFileName file)))) {o : Loaded}
    (ho : (h.loadConfig cache file base encoding v).answer = .ok o) :
    dir <+: place ∧ h.GivesFrom cache place encoding v o := by
  obtain ⟨k, hk, hgives⟩ := (h.loads cache file base encoding v).eq_ok ho
  obtain ⟨n, hn, -, -, -, hpath⟩ := Host.configKey_spec hk
  obtain ⟨hkplace, hprefix⟩ := hpath dir hd
  rw [configLocation_eq (hp.dataDir hd), ← hplace] at hkplace
  refine ⟨hkplace ▸ hprefix, ?_⟩
  rcases hgives with hc | hr
  · exact .inl ⟨k, hkplace, hc⟩
  · rw [hkplace] at hr
    obtain ⟨content, hcontent⟩ := Host.content_of_readConfig hr
    obtain ⟨time, hs⟩ := FileTree.content_eq_ok_iff.mp hcontent
    have hproper : place.Proper := (isNormalForm_iff.mpr hplace).proper
    have hnode := FileTree.stat_eq hs
    rw [hproper.reduced_eq] at hnode
    exact .inr ⟨⟨content, time, hnode⟩, hr⟩

/-- A config is refused just when its path does not have the parts of the data directory at its
beginning, once the path is in its only normal form. What is given instead comes from that very
place, by reading the file there or from what was remembered under it. -/
theorem Host.loadConfig_confined (hp : h.Placed) (hd : h.dataDir base = .ok dir)
    (hf : file.isPath = true) (cache : ConfigCache) (encoding : Text) (v : Option Validator) :
    ∃ place, (∀ l, IsNormalForm (joinedText dir (configFileName file)) l ↔ l = place) ∧
      (h.loadConfig cache file base encoding v).Confined dir place file ∧
      ∀ o, (h.loadConfig cache file base encoding v).answer = .ok o →
        dir <+: place ∧ h.GivesFrom cache place encoding v o :=
  ⟨reduced (cutAt '/' (joinedText dir (configFileName file))), fun _ => isNormalForm_iff,
    Host.confined hp hd hf rfl, fun _ ho => Host.givesFrom hp hd rfl ho⟩

theorem Host.loadConfig_confined_beside :
    bareHost.Placed ∧
      bareHost.dataDir (some "/srv/./data/".toList) = .ok ["srv".toList, "data".toList] ∧
      Text.isPath "../data2/a".toList = true ∧
      ∃ place, (∀ l, IsNormalForm (joinedText ["srv".toList, "data".toList]
          (configFileName "../data2/a".toList)) l ↔ l = place) ∧
        (bareHost.loadConfig [] "../data2/a".toList (some "/srv/./data/".toList) defaultEncoding
          none).Confined ["srv".toList, "data".toList] place "../data2/a".toList ∧
        ∀ o, (bareHost.loadConfig [] "../data2/a".toList (some "/srv/./data/".toList)
            defaultEncoding none).answer = .ok o →
          ["srv".toList, "data".toList] <+: place ∧
            bareHost.GivesFrom [] place defaultEncoding none o := by
  have hp : bareHost.Placed := ⟨Location.proper_nil, Location.proper_nil⟩
  have hd : bareHost.dataDir (some "/srv/./data/".toList) =
      .ok ["srv".toList, "data".toList] := by
    decide
  have hf : Text.isPath "../data2/a".toList = true := by decide
  exact ⟨hp, hd, hf, Host.loadConfig_confined hp hd hf [] defaultEncoding none⟩

end Lancaster
