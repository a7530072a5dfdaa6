import Lancaster.Proofs.Confinement
import Lancaster.Source.Session
import Mathlib.Data.List.Induction

/-!
Remembered configs. Whatever is remembered under a key is what reading the file of that key came to
when it had that time. So nobody can tell a remembered config from one that is read again, as long
as a file with the same time has the same content.
-/
namespace Lancaster

abbrev Checks := Text → ConfigObject → Except Rejection ConfigObject

structure ConfigCall where
  file : Text
  base : Option Text
  encoding : Text
  check : Option Text
  deriving DecidableEq, Repr

inductive ConfigEvent where
  | write (l : Location) (content : Bytes) (time : Int)
  | remove (l : Location)
  | touch (l : Location) (time : Int)
  | load (c : ConfigCall)
  | clear
  deriving DecidableEq, Repr

def Checks.named (checks : Checks) (name : Text) : Validator := ⟨name, checks name⟩

def Session.load (s : Session) (checks : Checks) (c : ConfigCall) :
    SessionReply ConfigFault Loaded :=
  s.loadConfig c.file c.base c.encoding (c.check.map checks.named)

def Session.withFiles (s : Session) (t : FileTree) : Session :=
  { s with host := { s.host with files := t } }

/-- The session after one event. Nothing changes when a file is written where a directory stands,
or removed where nothing is. -/
def Session.meet (checks : Checks) (s : Session) : ConfigEvent → Session
  | .write l content time =>
    if s.host.files.isDirectory l then s else s.withFiles (s.host.files.write l content time)
  | .remove l => match s.host.files.remove l with
    | .ok t => s.withFiles t
    | .error _ => s
  | .touch l time => s.withFiles (s.host.files.touch l time)
  | .load c => (s.load checks c).next
  | .clear => s.clearConfigs

def Session.after (checks : Checks) (s : Session) (events : List ConfigEvent) : Session :=
  events.foldl (Session.meet checks) s

/-- Among these events, what is found at the same place with the same time has the same content. A
directory has none. -/
def Session.FilesSteady (checks : Checks) (s : Session) (events : List ConfigEvent) : Prop :=
  ∀ es es', es <+: events → es' <+: events → ∀ l n n',
    (s.after checks es).host.files.stat l = .ok n →
    (s.after checks es').host.files.stat l = .ok n' → n.time = n'.time → n.content? = n'.content?

/-- A call that is answered as if nothing were remembered. When it fails nothing changes, and when
it succeeds its own key may be new. -/
structure Session.LoadsUnseen (checks : Checks) (s : Session) (c : ConfigCall) : Prop where
  answer : (s.load checks c).answer.map Loaded.object =
    (s.clearConfigs.load checks c).answer.map Loaded.object
  failed : ∀ f, (s.load checks c).answer = .error f → (s.load checks c).next = s
  added : ∀ o, (s.load checks c).answer = .ok o →
    (s.load checks c).next = s ∨
      ∃ k, s.host.configKey c.file c.base c.encoding (c.check.map checks.named) = .ok k ∧
        s.configs.lookup k = none ∧
        (s.load checks c).next = { s with configs := (k, o.object) :: s.configs }

def Host.SameBut (h h' : Host) : Prop := ∃ t, h' = { h with files := t }

/-- Reading the file of a key, under the time of the key, gives this object. -/
def Host.Confirms (h : Host) (checks : Checks) (k : ConfigKey) (o : ConfigObject) : Prop :=
  (∃ n, h.files.stat k.path = .ok n ∧ k.time = n.time) ∧
    h.readConfig k.path k.encoding (k.validator.map checks.named) = .ok o

variable {checks : Checks} {s : Session} {c : ConfigCall} {h h' : Host} {k : ConfigKey}
  {o : ConfigObject} {events es : List ConfigEvent} {l : Location} {encoding : Text}
  {v : Option Validator} {t : FileTree}

/-- Of the files, only the content of the one that is read matters. -/
theorem Host.readConfig_congr (hsame : h.SameBut h')
    (hc : h.files.content l = h'.files.content l) :
    h.readConfig l encoding v = h'.readConfig l encoding v := by
  obtain ⟨t, rfl⟩ := hsame
  rw [Host.readConfig, Host.readConfig, Host.readValue, Host.readValue, hc]
  rfl

theorem Node.eq_file_of_content? {n : Node} {content : Bytes} (hn : n.content? = some content) :
    n = .file content n.time := by
  cases n with
  | directory => cases hn
  | file own time =>
    obtain rfl := Option.some.inj hn
    rfl

theorem Host.Confirms.readConfig_eq (hc : h.Confirms checks k o) (hsame : h.SameBut h')
    (hfound : ∃ n, h'.files.stat k.path = .ok n ∧ k.time = n.time)
    (hsteady : ∀ n n', h.files.stat k.path = .ok n → h'.files.stat k.path = .ok n' →
      n.time = n'.time → n.content? = n'.content?) :
    h'.readConfig k.path k.encoding (k.validator.map checks.named) = .ok o := by
  obtain ⟨⟨n, hn, htime⟩, hread⟩ := hc
  obtain ⟨n', hn', htime'⟩ := hfound
  obtain ⟨content, hcontent⟩ := Host.content_of_readConfig hread
  obtain ⟨time, hs⟩ := FileTree.content_eq_ok_iff.mp hcontent
  obtain rfl : n = .file content time := Except.ok.inj (hn.symm.trans hs)
  have hagree : n'.content? = some content :=
    (hsteady _ n' hs hn' (htime.symm.trans htime')).symm
  rw [Node.eq_file_of_content? hagree] at hn'
  have hcontent' : h'.files.content k.path = .ok content :=
    FileTree.content_eq_ok_iff.mpr ⟨n'.time, hn'⟩
  rw [← hread]
  exact (Host.readConfig_congr hsame (hcontent.trans hcontent'.symm)).symm

theorem Session.load_eq (s : Session) (checks : Checks) (c : ConfigCall) :
    ∃ r, s.host.Loads s.configs c.file c.base c.encoding (c.check.map checks.named) r ∧
      (s.load checks c).answer = r.answer ∧
      (s.load checks c).next = { s with configs := r.cache } :=
  ⟨_, s.host.loads _ _ _ _ _, rfl, rfl⟩

/-- The key of a call repeats its encoding and its check, so that both can be read off the key. -/
theorem ConfigCall.key_spec
    (hk : h.configKey c.file c.base c.encoding (c.check.map checks.named) = .ok k) :
    (∃ n, h.files.stat k.path = .ok n ∧ k.time = n.time) ∧ k.encoding = c.encoding ∧
      k.validator.map checks.named = c.check.map checks.named := by
  obtain ⟨n, hn, htime, hencoding, hvalidator, -⟩ := Host.configKey_spec hk
  refine ⟨⟨n, hn, htime⟩, hencoding, ?_⟩
  rw [hvalidator]
  cases c.check <;> rfl

theorem Host.Loads.eq_error {cache : ConfigCache} {file : Text} {base : Option Text}
    {r : ConfigReply} {f : ConfigFault} (hl : h.Loads cache file base encoding v r)
    (hk : h.configKey file base encoding v = .error f) : r.answer = .error f := by
  cases hl with
  | unplaced hk' =>
    obtain rfl := Except.error.inj (hk.symm.trans hk')
    rfl
  | remembered hk' => rw [hk] at hk'; cases hk'
  | unread hk' => rw [hk] at hk'; cases hk'
  | read hk' => rw [hk] at hk'; cases hk'

theorem Host.Loads.object_eq {cache : ConfigCache} {file : Text} {base : Option Text}
    {r : ConfigReply} (hl : h.Loads cache file base encoding v r)
    (hk : h.configKey file base encoding v = .ok k)
    (hright : ∀ o, cache.lookup k = some o → h.readConfig k.path encoding v = .ok o) :
    r.answer.map Loaded.object = h.readConfig k.path encoding v := by
  cases hl with
  | unplaced hk' => rw [hk] at hk'; cases hk'
  | @remembered k' o hk' hc =>
    obtain rfl := Except.ok.inj (hk.symm.trans hk')
    exact (hright o hc).symm
  | unread hk' _ hr =>
    obtain rfl := Except.ok.inj (hk.symm.trans hk')
    exact hr.symm
  | read hk' _ hr =>
    obtain rfl := Except.ok.inj (hk.symm.trans hk')
    exact hr.symm

theorem Session.loadsUnseen_of_right
    (hright : ∀ k o,
      s.host.configKey c.file c.base c.encoding (c.check.map checks.named) = .ok k →
      s.configs.lookup k = some o →
      s.host.readConfig k.path c.encoding (c.check.map checks.named) = .ok o) :
    s.LoadsUnseen checks c := by
  obtain ⟨r, hl, hanswer, hnext⟩ := s.load_eq checks c
  obtain ⟨r₀, hl₀, hanswer₀, -⟩ := s.clearConfigs.load_eq checks c
  refine ⟨?_, ?_, ?_⟩
  · rw [hanswer, hanswer₀]
    cases hk : s.host.configKey c.file c.base c.encoding (c.check.map checks.named) with
    | error f => rw [hl.eq_error hk, hl₀.eq_error hk]
    | ok k =>
      rw [hl.object_eq hk (hright k · hk)]
      exact (hl₀.object_eq hk fun o ho => by cases ho).symm
  · intro f hf
    rw [hanswer] at hf
    rw [hnext]
    cases hl with
    | unplaced => rfl
    | remembered => cases hf
    | unread => rfl
    | read => cases hf
  · intro o ho
    rw [hanswer] at ho
    rw [hnext]
    cases hl with
    | unplaced => cases ho
    | remembered => exact .inl rfl
    | unread => cases ho
    | @read k own hk hc _ =>
      obtain rfl := Except.ok.inj ho
      exact .inr ⟨k, hk, hc, rfl⟩

theorem Session.meet_confirms {e : ConfigEvent} (hmem : (k, o) ∈ (s.meet checks e).configs) :
    (k, o) ∈ s.configs ∨ s.host.Confirms checks k o := by
  cases e with
  | write l content time =>
    rw [Session.meet] at hmem
    split at hmem
    · exact .inl hmem
    · exact .inl hmem
  | remove l =>
    rw [Session.meet] at hmem
    split at hmem
    · exact .inl hmem
    · exact .inl hmem
  | touch l time => exact .inl hmem
  | clear => cases hmem
  | load c =>
    obtain ⟨r, hl, -, hnext⟩ := s.load_eq checks c
    rw [Session.meet, hnext] at hmem
    cases hl with
    | unplaced => exact .inl hmem
    | remembered => exact .inl hmem
    | unread => exact .inl hmem
    | @read k' o' hk _ hr =>
      rcases List.mem_cons.mp hmem with hnew | hold
      · obtain ⟨rfl, rfl⟩ := Prod.mk.inj hnew
        obtain ⟨hfound, hencoding, hvalidator⟩ := ConfigCall.key_spec hk
        refine .inr ⟨hfound, ?_⟩
        rw [hencoding, hvalidator]
        exact hr
      · exact .inl hold

theorem Session.meet_sameBut (hs : h.SameBut s.host) (e : ConfigEvent) :
    h.SameBut (s.meet checks e).host := by
  have hfiles : ∀ t, h.SameBut (s.withFiles t).host := by
    intro t
    obtain ⟨t', ht'⟩ := hs
    exact ⟨t, by rw [Session.withFiles, ht']⟩
  cases e with
  | write l content time =>
    rw [Session.meet]
    split
    · exact hs
    · exact hfiles _
  | remove l =>
    rw [Session.meet]
    split
    · exact hfiles _
    · exact hs
  | touch l time => exact hfiles _
  | load c => exact hs
  | clear => exact hs

theorem Session.after_sameBut (hs : h.SameBut s.host) (events : List ConfigEvent) :
    h.SameBut (s.after checks events).host := by
  induction events generalizing s with
  | nil => exact hs
  | cons e events ih => exact ih (Session.meet_sameBut hs e)

theorem Host.SameBut.join {h₁ h₂ : Host} (h1 : h.SameBut h₁) (h2 : h.SameBut h₂) :
    h₁.SameBut h₂ := by
  obtain ⟨t₁, rfl⟩ := h1
  obtain ⟨t₂, rfl⟩ := h2
  exact ⟨t₂, rfl⟩

/-- All that is remembered was confirmed at some time since the start. -/
theorem Session.after_confirms (hmem : (k, o) ∈ ((Session.start h).after checks events).configs) :
    ∃ es, es <+: events ∧ ((Session.start h).after checks es).host.Confirms checks k o := by
  induction events using List.reverseRecOn with
  | nil => cases hmem
  | append_singleton events e ih =>
    rw [Session.after, List.foldl_append] at hmem
    rcases Session.meet_confirms hmem with hold | hnew
    · obtain ⟨es, hes, hc⟩ := ih hold
      exact ⟨es, hes.trans (List.prefix_append events [e]), hc⟩
    · exact ⟨events, List.prefix_append events [e], hnew⟩

/-- All that is found has the content that a table gives for its place and time. -/
def FileTree.Follows (t : FileTree) (contents : Location → Int → Option Bytes) : Prop :=
  ∀ l n, t.node? l = some n → n.content? = contents l n.time

/-- What is written follows the table, as do the directories made for it, and what is touched has a
content that no time changes. -/
def ConfigEvent.Follows (contents : Location → Int → Option Bytes) : ConfigEvent → Prop
  | .write l content time => contents l time = some content ∧
      ∀ dir ∈ Location.above l.dropLast ++ [l.dropLast], contents dir time = none
  | .touch l time => ∀ earlier, contents l earlier = contents l time
  | .remove _ | .load _ | .clear => True

variable {contents : Location → Int → Option Bytes} {n : Node}

theorem lookup_filter_fst (p : Location → Bool) (nodes : List (Location × Node)) (l : Location) :
    (nodes.filter fun e => p e.1).lookup l = if p l then nodes.lookup l else none := by
  induction nodes with
  | nil => simp
  | cons e nodes ih =>
    obtain ⟨place, n⟩ := e
    by_cases hl : l = place
    · subst hl
      cases hp : p l with
      | true => simp [hp]
      | false =>
        rw [hp] at ih
        simpa [hp] using ih
    · have hbeq : (l == place) = false := by simpa using hl
      cases hp : p place with
      | true => simpa [hp, List.lookup_cons, hbeq] using ih
      | false => simpa [hp, List.lookup_cons, hbeq] using ih

theorem FileTree.node?_put {n' : Node} {l' : Location}
    (hn : (t.put l n).node? l' = some n') : l' = l ∧ n' = n ∨ t.node? l' = some n' := by
  unfold FileTree.node? FileTree.put at hn
  by_cases hroot : l' = []
  · rw [if_pos hroot] at hn
    rw [FileTree.node?, if_pos hroot]
    exact .inr hn
  · rw [if_neg hroot] at hn
    by_cases hl : l' = l
    · subst hl
      have hown : n = n' := by simpa [List.lookup_cons] using hn
      exact .inl ⟨rfl, hown.symm⟩
    · have hbeq : (l' == l) = false := by simpa using hl
      rw [List.lookup_cons, hbeq, lookup_filter_fst (fun x => x != l)] at hn
      rw [FileTree.node?, if_neg hroot]
      exact .inr (by simpa [hl] using hn)

theorem FileTree.Follows.put (ht : t.Follows contents) (hn : n.content? = contents l n.time) :
    (t.put l n).Follows contents := by
  intro l' n' hn'
  rcases FileTree.node?_put hn' with ⟨rfl, rfl⟩ | hold
  · exact hn
  · exact ht l' n' hold

theorem FileTree.Follows.makeDirectory {time : Int} (ht : t.Follows contents)
    (hdirs : ∀ dir ∈ l.above ++ [l], contents dir time = none) :
    (t.makeDirectory l time).Follows contents := by
  unfold FileTree.makeDirectory
  generalize l.above ++ [l] = dirs at hdirs
  induction dirs generalizing t with
  | nil => exact ht
  | cons dir dirs ih =>
    rw [List.foldl_cons]
    apply ih
    · split
      · exact ht
      · exact ht.put (hdirs dir List.mem_cons_self).symm
    · intro other hother
      exact hdirs other (List.mem_cons_of_mem dir hother)

theorem FileTree.Follows.touch {time : Int} (ht : t.Follows contents)
    (hl : ∀ earlier, contents l earlier = contents l time) :
    (t.touch l time).Follows contents := by
  unfold FileTree.touch
  split
  · rename_i n hn
    have hkept : (n.touched time).content? = n.content? := by cases n <;> rfl
    have htime : (n.touched time).time = time := by cases n <;> rfl
    apply ht.put
    rw [hkept, htime, ht l n hn, hl]
  · exact ht

theorem FileTree.Follows.remove {t' : FileTree} (ht : t.Follows contents)
    (hr : t.remove l = .ok t') : t'.Follows contents := by
  obtain ⟨_, _, hr⟩ := exists_of_bind_eq_ok hr
  obtain rfl := Except.ok.inj hr
  intro l' n hn
  apply ht l' n
  by_cases hroot : l' = []
  · rw [FileTree.node?, if_pos hroot] at hn ⊢
    exact hn
  · rw [FileTree.node?, if_neg hroot] at hn ⊢
    rw [lookup_filter_fst (fun x => !x.within l)] at hn
    split at hn
    · exact hn
    · cases hn

theorem Session.meet_follows {e : ConfigEvent} (hs : s.host.files.Follows contents)
    (he : e.Follows contents) : (s.meet checks e).host.files.Follows contents := by
  cases e with
  | write l content time =>
    rw [Session.meet]
    split
    · exact hs
    · exact (hs.makeDirectory he.2).put he.1.symm
  | remove l =>
    rw [Session.meet]
    split
    · rename_i t ht
      exact hs.remove ht
    · exact hs
  | touch l time => exact hs.touch he
  | load c => exact hs
  | clear => exact hs

theorem Session.after_follows (hs : s.host.files.Follows contents)
    (hevents : ∀ e ∈ events, e.Follows contents) :
    (s.after checks events).host.files.Follows contents := by
  induction events generalizing s with
  | nil => exact hs
  | cons e events ih =>
    apply ih
    · exact Session.meet_follows hs (hevents e List.mem_cons_self)
    · intro e' he'
      exact hevents e' (List.mem_cons_of_mem e he')

theorem Session.filesSteady_of_follows (hs : s.host.files.Follows contents)
    (hevents : ∀ e ∈ events, e.Follows contents) : s.FilesSteady checks events := by
  have hafter : ∀ es, es <+: events → (s.after checks es).host.files.Follows contents := by
    intro es hes
    apply Session.after_follows hs
    intro e he
    exact hevents e (hes.subset he)
  intro es es' hes hes' l n n' hstat hstat' htime
  have hfirst := hafter es hes (reduced l) n (FileTree.stat_eq hstat)
  have hsecond := hafter es' hes' (reduced l) n' (FileTree.stat_eq hstat')
  rw [hfirst, hsecond, htime]

/-- As long as a file with the same time keeps its content, no call can tell what is remembered:
whatever was written, removed, asked for or forgotten before. -/
theorem Session.load_unseen (hsteady : (Session.start h).FilesSteady checks events)
    {before after : List ConfigEvent} (hevents : events = before ++ .load c :: after) :
    ((Session.start h).after checks before).LoadsUnseen checks c := by
  have hbefore : before <+: events := ⟨.load c :: after, hevents.symm⟩
  refine Session.loadsUnseen_of_right fun k o hk hlookup => ?_
  have hmem : (k, o) ∈ ((Session.start h).after checks before).configs := by
    obtain ⟨others, rest, hconfigs, -⟩ := List.lookup_eq_some_iff.mp hlookup
    rw [hconfigs]
    exact List.mem_append_right others List.mem_cons_self
  obtain ⟨es, hes, hconfirms⟩ := Session.after_confirms hmem
  obtain ⟨hfound, hencoding, hvalidator⟩ := ConfigCall.key_spec hk
  have hsame : ∀ es, h.SameBut ((Session.start h).after checks es).host :=
    Session.after_sameBut ⟨h.files, rfl⟩
  have hread := hconfirms.readConfig_eq ((hsame es).join (hsame before)) hfound
    (hsteady es before (hes.trans hbefore) hbefore k.path)
  rwa [hencoding, hvalidator] at hread

def sharedContent (time : Int) : Bytes :=
  if time < 2 then "\x7b\"a\": 1\x7d".toUTF8.toList else "\x7b\"a\": 2\x7d".toUTF8.toList

def sharedPlace : Location := ["d".toList, "a.json".toList]

def sharedContents (l : Location) (time : Int) : Option Bytes :=
  if l = sharedPlace then some (sharedContent time) else none

def fromOwn (check : Option Text) : ConfigCall :=
  ⟨"a".toList, some "/d".toList, defaultEncoding, check⟩

def fromOther : ConfigCall := ⟨"../d/a".toList, some "/e".toList, defaultEncoding, none⟩

def busyHistory : List ConfigEvent :=
  [.write sharedPlace (sharedContent 1) 1, .load (fromOwn none),
    .load (fromOwn (some "c".toList)), .write sharedPlace (sharedContent 2) 2,
    .load (fromOwn none), .load fromOther, .remove sharedPlace, .touch ["d".toList] 3]

theorem busyHistory_follows :
    ∀ e ∈ busyHistory ++ [.load (fromOwn none)], e.Follows sharedContents := by
  have hwrite : ∀ time,
      (ConfigEvent.write sharedPlace (sharedContent time) time).Follows sharedContents := by
    intro time
    refine ⟨rfl, fun dir hdir => if_neg ?_⟩
    rintro rfl
    exact absurd hdir (by decide)
  simp only [busyHistory, List.cons_append, List.nil_append, List.forall_mem_cons]
  exact ⟨hwrite 1, trivial, trivial, hwrite 2, trivial, trivial, trivial, fun _ => rfl, trivial,
    nofun⟩

theorem Session.load_unseen_removed :
    (Session.start bareHost).FilesSteady (fun _ o => .ok o)
        (busyHistory ++ [.load (fromOwn none)]) ∧
      ((Session.start bareHost).after (fun _ o => .ok o) busyHistory).LoadsUnseen
        (fun _ o => .ok o) (fromOwn none) := by
  have hfollows : bareHost.files.Follows sharedContents := by
    intro l n hn
    by_cases hl : l = []
    · subst hl
      obtain rfl := Option.some.inj hn
      rfl
    · rw [FileTree.node?, if_neg hl] at hn
      cases hn
  have hsteady : (Session.start bareHost).FilesSteady (fun _ o => .ok o)
      (busyHistory ++ [.load (fromOwn none)]) :=
    Session.filesSteady_of_follows hfollows busyHistory_follows
  exact ⟨hsteady, Session.load_unseen hsteady rfl⟩

end Lancaster
