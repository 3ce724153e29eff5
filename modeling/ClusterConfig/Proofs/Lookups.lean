import ClusterConfig.Config.Operation
import ClusterConfig.Proofs.Outcome

/-!
# What is asked about a node

The role and the name of a node are asked for once and then remembered, until the configuration gets another host. A clone
remembers what was known when it was cloned, and asks by itself for what was not. So the questions are told by the life of a
configuration, which begins when its host is set and goes on in its clones: `lookups_of_run` says that of all readings in a life
the first one asks, and the others give the same without asking.
-/

namespace ClusterConfig

/-! ## What a role is looked up as -/

namespace RoleLookup

/-- The tag names no role. -/
def NamesNoRole (tag : String) : Prop := ∀ role : Role, tag ≠ role.name

/-- The role is looked up so in the text of tags: it is unavailable where there is no text or no list of texts in it, and
otherwise it is the one that the first tag names which names any. -/
inductive FoundIn : Option String → RoleLookup → Prop where
  | noText : FoundIn none unavailable
  | noList {text : String} : Yaml.readTexts? text = none → FoundIn (some text) unavailable
  | matched {text : String} {before after : List String} {role : Role} :
      Yaml.readTexts? text = some (before ++ role.name :: after) → (∀ tag ∈ before, NamesNoRole tag) →
      FoundIn (some text) (matched role)
  | noMatch {text : String} {tags : List String} :
      Yaml.readTexts? text = some tags → (∀ tag ∈ tags, NamesNoRole tag) → FoundIn (some text) noMatch

theorem ofName_eq_some {tag : String} {role : Role} : Role.ofName? tag = some role ↔ tag = role.name := by
  constructor
  · intro h
    have hname := List.find?_some h
    exact (beq_iff_eq.mp hname).symm
  · rintro rfl
    cases role <;> rfl

theorem ofName_eq_none {tag : String} : Role.ofName? tag = none ↔ NamesNoRole tag := by
  rw [Option.eq_none_iff_forall_ne_some]
  exact forall_congr' fun role => not_congr ofName_eq_some

/-- Looking up a role in a text gives what is found in it. -/
theorem foundIn_ofText (text : Option String) : FoundIn text (ofText text).value := by
  cases text with
  | none => exact .noText
  | some text =>
    rw [ofText]
    cases hread : Yaml.readTexts? text with
    | none => exact .noList hread
    | some tags =>
      simp only [ofTags]
      cases hfind : tags.findSome? Role.ofName? with
      | none =>
        refine .noMatch hread fun tag htag => ?_
        exact ofName_eq_none.mp (List.findSome?_eq_none_iff.mp hfind tag htag)
      | some role =>
        obtain ⟨before, tag, after, rfl, htag, hbefore⟩ := List.findSome?_eq_some_iff.mp hfind
        rw [ofName_eq_some.mp htag] at hread
        exact .matched hread fun t ht => ofName_eq_none.mp (hbefore t ht)

end RoleLookup

/-! ## The life of a configuration -/

/-- What has been done with a configuration since its host was set. What was done with another one before it was cloned from
that is part of it. -/
structure ConfigLife where
  host : Host
  entries : List ConfigEntry

namespace ConfigLife

/-- The questions that were asked in the life. -/
def calls (life : ConfigLife) : List (Nat × HostCall) := life.entries.flatMap ConfigEntry.calls

/-- The life with one more entry. -/
def extend (life : ConfigLife) (e : ConfigEntry) : ConfigLife := { life with entries := life.entries ++ [e] }

/-- The lives of all configurations after one more entry of the record. -/
def record (lives : List ConfigLife) (e : ConfigEntry) : List ConfigLife :=
  match e.operation with
  | .make _ host =>
    match e.reply with
    | .made _ => lives ++ [⟨host, []⟩]
    | _ => lives
  | .use on use =>
    match lives[on]? with
    | none => lives
    | some life =>
      match use with
      | .clone => lives ++ [life]
      | .withHost host => lives.set on ⟨host, []⟩
      | _ => lives.set on (life.extend e)

/-- The lives of all configurations by a record, in the order of their numbers. -/
def ofRecord (entries : List ConfigEntry) : List ConfigLife := entries.foldl record []

end ConfigLife

/-! ## What is asked for once -/

/-- Something that a configuration asks its host for and remembers. -/
structure NodeCache (α : Type) where
  question : HostCall
  /-- The use reads the value. -/
  reads : ConfigUse → Bool
  /-- The answer to such a use. -/
  reply : ConfigUse → α → ConfigReply
  /-- The value is what the host gives. -/
  Given : Host → α → Prop

namespace NodeCache

/-- The role of the node. -/
def role : NodeCache RoleLookup where
  question := .metadata "tags"
  reads
    | .lookUpRole => true
    | .role => true
    | _ => false
  reply
    | .role, found => .role found.role?
    | _, found => .lookup found
  Given host found := RoleLookup.FoundIn (host.metadata "tags").value found

/-- The name of the node. -/
def hostname : NodeCache String where
  question := .hostname
  reads
    | .hostname => true
    | _ => false
  reply _ name := .hostname name
  Given host name := name = host.hostname

variable {α : Type} (k : NodeCache α)

/-- The entry reads the value. -/
def readBy (e : ConfigEntry) : Bool :=
  match e.operation with
  | .make _ _ => false
  | .use _ use => k.reads use

/-- The question of a host for the value. -/
def call (host : Host) : Nat × HostCall := (host.id, k.question)

/-- The entry reads the value and answers with it. -/
def Gives (e : ConfigEntry) (v : α) : Prop :=
  ∃ on use, e.operation = .use on use ∧ k.reads use = true ∧ e.reply = k.reply use v

/-- The entries are readings of one value: the first one asks the host and gets it, and the others give it without asking. -/
structure Readings (host : Host) (v : α) (first : ConfigEntry) (rest : List ConfigEntry) : Prop where
  given : k.Given (first.now host) v
  asks : first.calls = [k.call host]
  silent : ∀ e ∈ rest, e.calls = []
  gives : ∀ e ∈ first :: rest, k.Gives e v

/-- Of all readings in a life the first one asks the host of that life, and the others give the same without asking. -/
def AskedOnce (life : ConfigLife) : Prop :=
  ∀ first rest, life.entries.filter k.readBy = first :: rest → ∃ v, k.Readings life.host v first rest

/-- What a configuration has stored is what was read by the entries. -/
inductive Remembers (host : Host) : Option α → List ConfigEntry → Prop where
  | unread : Remembers host none []
  | read {v : α} {first : ConfigEntry} {rest : List ConfigEntry} :
      k.Readings host v first rest → Remembers host (some v) (first :: rest)

/-- What one entry does to the value that is stored. -/
inductive Step (host : Host) (e : ConfigEntry) : Option α → Option α → Prop where
  | other {stored : Option α} : k.readBy e = false → Step host e stored stored
  | first {v : α} : k.Given (e.now host) v → e.calls = [k.call host] → k.Gives e v → Step host e none (some v)
  | again {v : α} : e.calls = [] → k.Gives e v → Step host e (some v) (some v)

variable {k}

theorem Gives.readBy {e : ConfigEntry} {v : α} (h : k.Gives e v) : k.readBy e = true := by
  obtain ⟨on, use, hop, hreads, -⟩ := h
  rw [NodeCache.readBy, hop]
  exact hreads

/-- One more reading that gives the same without asking. -/
theorem Readings.concat {host : Host} {v : α} {first e : ConfigEntry} {rest : List ConfigEntry}
    (h : k.Readings host v first rest) (hsilent : e.calls = []) (hgives : k.Gives e v) :
    k.Readings host v first (rest ++ [e]) := by
  refine ⟨h.given, h.asks, ?_, ?_⟩
  · rw [List.forall_mem_append]
    exact ⟨h.silent, by simpa using hsilent⟩
  · rw [← List.cons_append, List.forall_mem_append]
    exact ⟨h.gives, by simpa using hgives⟩

/-- What is stored is still what was read, after one more entry. -/
theorem Remembers.step {host : Host} {e : ConfigEntry} {old new : Option α} {entries : List ConfigEntry}
    (h : k.Remembers host old (entries.filter k.readBy)) (hstep : k.Step host e old new) :
    k.Remembers host new ((entries ++ [e]).filter k.readBy) := by
  rw [List.filter_append]
  generalize entries.filter k.readBy = reads at h
  cases hstep with
  | other hnot => simpa [hnot] using h
  | first hgiven hasks hgives =>
    cases h with
    | unread =>
      rw [List.filter_cons_of_pos hgives.readBy]
      refine .read ⟨hgiven, hasks, by simp, ?_⟩
      simpa using hgives
  | again hsilent hgives =>
    cases h with
    | read hr =>
      rw [List.filter_cons_of_pos hgives.readBy]
      exact .read (hr.concat hsilent hgives)

theorem Remembers.askedOnce {life : ConfigLife} {stored : Option α}
    (h : k.Remembers life.host stored (life.entries.filter k.readBy)) : k.AskedOnce life := by
  intro first rest hreads
  rw [hreads] at h
  cases h with
  | read hr => exact ⟨_, hr⟩

/-- What is stored stays. -/
theorem Step.isSome {host : Host} {e : ConfigEntry} {old new : Option α} (h : k.Step host e old new) (hold : old ≠ none) :
    new ≠ none := by
  cases h with
  | other _ => exact hold
  | first _ _ _ => simp
  | again _ _ => simp

/-- An entry that reads the value asks for it only where it is not stored. -/
theorem Step.calls {host : Host} {e : ConfigEntry} {old new : Option α} (h : k.Step host e old new)
    (hreads : k.readBy e = true) : e.calls = [] ∨ e.calls = [k.call host] ∧ old = none ∧ new ≠ none := by
  cases h with
  | other hnot => simp [hnot] at hreads
  | first _ hasks _ => exact .inr ⟨hasks, rfl, by simp⟩
  | again hsilent _ => exact .inl hsilent

end NodeCache

/-- The entry asks nothing, or for what it reads: the tags for the role, or the name. -/
def ConfigEntry.AsksOwn (e : ConfigEntry) : Prop :=
  ∀ call ∈ e.calls, (NodeCache.role.readBy e = true ∧ call.2 = NodeCache.role.question) ∨
    (NodeCache.hostname.readBy e = true ∧ call.2 = NodeCache.hostname.question)

theorem ConfigEntry.AsksOwn.of_silent {e : ConfigEntry} (h : e.calls = []) : e.AsksOwn := by
  simp [AsksOwn, h]

/-! ## A configuration and its life -/

/-- What one entry of its life does to a configuration. -/
structure Continues (c : Config) (e : ConfigEntry) (c' : Config) : Prop where
  host : c'.host = c.host
  role : NodeCache.role.Step c.host e c.role c'.role
  hostname : NodeCache.hostname.Step c.host e c.hostname c'.hostname
  reads : e.calls ≠ [] → NodeCache.role.readBy e = true ∨ NodeCache.hostname.readBy e = true

/-- The question is one that the configuration has stored the answer to. -/
def Known (c : Config) (call : Nat × HostCall) : Prop :=
  call = NodeCache.role.call c.host ∧ c.role ≠ none ∨ call = NodeCache.hostname.call c.host ∧ c.hostname ≠ none

namespace Continues

variable {c c' : Config} {e : ConfigEntry}

theorem known (h : Continues c e c') {call : Nat × HostCall} (hknown : Known c call) : Known c' call := by
  rw [Known, h.host]
  exact hknown.imp (And.imp_right h.role.isSome) (And.imp_right h.hostname.isSome)

/-- An entry asks nothing, or for what it reads, which is stored afterwards but not before. -/
theorem asks (h : Continues c e c') : e.calls = [] ∨
    (NodeCache.role.readBy e = true ∧ e.calls = [NodeCache.role.call c.host] ∧ c.role = none ∧ c'.role ≠ none) ∨
    (NodeCache.hostname.readBy e = true ∧ e.calls = [NodeCache.hostname.call c.host] ∧ c.hostname = none ∧
      c'.hostname ≠ none) := by
  rcases em (e.calls = []) with hsilent | hasks
  · exact .inl hsilent
  · right
    rcases h.reads hasks with hreads | hreads
    · exact .inl ⟨hreads, (h.role.calls hreads).resolve_left hasks⟩
    · exact .inr ⟨hreads, (h.hostname.calls hreads).resolve_left hasks⟩

/-- The configuration knows the answer to a question of an entry afterwards, but not before. -/
theorem calls (h : Continues c e c') : e.calls = [] ∨ ∃ call, e.calls = [call] ∧ ¬Known c call ∧ Known c' call := by
  have hne : NodeCache.role.call c.host ≠ NodeCache.hostname.call c.host := by
    simp [NodeCache.call, NodeCache.role, NodeCache.hostname]
  rcases h.asks with hsilent | ⟨-, hasks, hnone, hsome⟩ | ⟨-, hasks, hnone, hsome⟩
  · exact .inl hsilent
  · refine .inr ⟨_, hasks, ?_, .inl ⟨by rw [h.host], hsome⟩⟩
    simp [Known, hnone, hne]
  · refine .inr ⟨_, hasks, ?_, .inr ⟨by rw [h.host], hsome⟩⟩
    simp [Known, hnone, hne.symm]

theorem asksOwn (h : Continues c e c') : e.AsksOwn := by
  intro call hcall
  rcases h.asks with hsilent | ⟨hreads, hasks, -⟩ | ⟨hreads, hasks, -⟩
  · rw [hsilent] at hcall
    exact absurd hcall List.not_mem_nil
  · rw [hasks, List.mem_singleton] at hcall
    exact .inl ⟨hreads, congrArg Prod.snd hcall⟩
  · rw [hasks, List.mem_singleton] at hcall
    exact .inr ⟨hreads, congrArg Prod.snd hcall⟩

end Continues

/-- A configuration knows what was asked in its life, and nothing was asked twice. -/
structure Consistent (c : Config) (life : ConfigLife) : Prop where
  host : c.host = life.host
  role : NodeCache.role.Remembers life.host c.role (life.entries.filter NodeCache.role.readBy)
  hostname : NodeCache.hostname.Remembers life.host c.hostname (life.entries.filter NodeCache.hostname.readBy)
  known : ∀ call ∈ life.calls, Known c call
  nodup : life.calls.Nodup

namespace Consistent

/-- A configuration that has been asked nothing, at the beginning of a life. -/
theorem wrap (fields : Namespace) (host : Host) : Consistent (Config.wrap fields host) ⟨host, []⟩ :=
  ⟨rfl, .unread, .unread, by simp [ConfigLife.calls], List.nodup_nil⟩

/-- A configuration still knows what was asked, after one more entry of its life. -/
theorem extend {c c' : Config} {life : ConfigLife} {e : ConfigEntry} (h : Consistent c life) (hstep : Continues c e c') :
    Consistent c' (life.extend e) := by
  have hrole : NodeCache.role.Step life.host e c.role c'.role := h.host ▸ hstep.role
  have hname : NodeCache.hostname.Step life.host e c.hostname c'.hostname := h.host ▸ hstep.hostname
  have hcalls : (life.extend e).calls = life.calls ++ e.calls := by simp [ConfigLife.calls, ConfigLife.extend]
  refine ⟨hstep.host.trans h.host, h.role.step hrole, h.hostname.step hname, ?_, ?_⟩
  · rw [hcalls, List.forall_mem_append]
    refine ⟨fun call hcall => hstep.known (h.known call hcall), ?_⟩
    rcases hstep.calls with hsilent | ⟨call, hasks, -, hknown⟩
    · simp [hsilent]
    · simpa [hasks] using hknown
  · rw [hcalls]
    rcases hstep.calls with hsilent | ⟨call, hasks, hnew, -⟩
    · simpa [hsilent] using h.nodup
    · rw [hasks, List.nodup_append]
      refine ⟨h.nodup, by simp, ?_⟩
      rintro old hold _ hcall rfl
      rw [List.mem_singleton.mp hcall] at hold
      exact hnew (h.known call hold)

end Consistent

/-! ## One operation -/

theorem NodeCache.readBy_of_use {α : Type} {k : NodeCache α} {e : ConfigEntry} {on : Nat} {use : ConfigUse}
    (hop : e.operation = .use on use) : k.readBy e = k.reads use := by
  rw [NodeCache.readBy, hop]

/-- No use reads both the role and the name. -/
theorem NodeCache.reads_one (use : ConfigUse) : NodeCache.role.reads use = false ∨ NodeCache.hostname.reads use = false := by
  cases use <;> first | exact .inl rfl | exact .inr rfl

namespace Continues

variable {c : Config} {e : ConfigEntry} {on : Nat} {use : ConfigUse}

/-- A use that reads nothing goes on with a configuration that has stored the same. -/
theorem of_silent {c' : Config} (hop : e.operation = .use on use) (hrole : NodeCache.role.reads use = false)
    (hname : NodeCache.hostname.reads use = false) (hcalls : e.calls = [])
    (hsame : c'.host = c.host ∧ c'.role = c.role ∧ c'.hostname = c.hostname) : Continues c e c' := by
  obtain ⟨hhost, hrole', hname'⟩ := hsame
  rw [← NodeCache.readBy_of_use hop] at hrole hname
  exact ⟨hhost, hrole' ▸ .other hrole, hname' ▸ .other hname, fun hasks => absurd hcalls hasks⟩

/-- Looking up the role goes on with the configuration that has stored it. -/
theorem of_lookUpRole (hop : e.operation = .use on use) (hreads : NodeCache.role.reads use = true)
    (hreply : e.reply = NodeCache.role.reply use (c.askNow e.now Config.lookUpRole).value)
    (hcalls : e.calls = (c.askNow e.now Config.lookUpRole).calls.map fun call => (c.host.id, call)) :
    Continues c e (c.askNow e.now Config.lookUpRole).config := by
  have hgives : NodeCache.role.Gives e (c.askNow e.now Config.lookUpRole).value := ⟨on, use, hop, hreads, hreply⟩
  have hname : NodeCache.hostname.readBy e = false := by
    rw [NodeCache.readBy_of_use hop]
    exact (NodeCache.reads_one use).resolve_left (by simp [hreads])
  obtain ⟨fields, host, role, hostname⟩ := c
  cases role with
  | some found => exact ⟨rfl, .again hcalls hgives, .other hname, fun _ => .inl hgives.readBy⟩
  | none => exact ⟨rfl, .first (RoleLookup.foundIn_ofText _) hcalls hgives, .other hname, fun _ => .inl hgives.readBy⟩

/-- Looking up the name goes on with the configuration that has stored it. -/
theorem of_lookUpHostname (hop : e.operation = .use on use) (hreads : NodeCache.hostname.reads use = true)
    (hreply : e.reply = NodeCache.hostname.reply use (c.askNow e.now Config.lookUpHostname).value)
    (hcalls : e.calls = (c.askNow e.now Config.lookUpHostname).calls.map fun call => (c.host.id, call)) :
    Continues c e (c.askNow e.now Config.lookUpHostname).config := by
  have hgives : NodeCache.hostname.Gives e (c.askNow e.now Config.lookUpHostname).value := ⟨on, use, hop, hreads, hreply⟩
  have hrole : NodeCache.role.readBy e = false := by
    rw [NodeCache.readBy_of_use hop]
    exact (NodeCache.reads_one use).resolve_right (by simp [hreads])
  obtain ⟨fields, host, role, hostname⟩ := c
  cases hostname with
  | some name => exact ⟨rfl, .other hrole, .again hcalls hgives, fun _ => .inr hgives.readBy⟩
  | none => exact ⟨rfl, .other hrole, .first rfl hcalls hgives, fun _ => .inr hgives.readBy⟩

end Continues

namespace Configs

variable {s : Configs} {on : Nat} {c : Config}

/-- A configuration that is made has been asked nothing. -/
theorem make_list (s : Configs) (source : ConfigSource) (host : Host) :
    (∃ fields, s.make source host = s.add (Config.wrap fields host)) ∨ ∃ e, s.make source host = (s, .failed e) := by
  cases source with
  | properties p => exact .inl ⟨Config.describe p, rfl⟩
  | fields ns => exact .inl ⟨ns, rfl⟩
  | file file =>
    simp only [make]
    cases hload : Config.load s.files file host with
    | error e => exact .inr ⟨e, rfl⟩
    | ok c =>
      obtain ⟨entries, -, rfl⟩ := map_eq_ok.mp hload
      exact .inl ⟨_, rfl⟩

theorem step_of_use {action : ConfigAction} {use : ConfigUse} (hop : action.operation = .use on use)
    (hc : s.list[on]? = some c) :
    s.step action = ((s.use action.now on c use).1, ⟨action, (s.use action.now on c use).2.1,
      (s.use action.now on c use).2.2.map fun call => (c.host.id, call)⟩) := by
  simp only [step, hop, hc]

/-- A use that leaves all configurations as they are goes on with the one that is used. -/
theorem list_set_self (hc : s.list[on]? = some c) : s.list.set on c = s.list := by
  obtain ⟨hlt, rfl⟩ := List.getElem?_eq_some_iff.mp hc
  exact List.set_getElem_self hlt

/-- What a use does to the configurations: a clone is added, another host begins anew, and any other use goes on with the one
that is used. -/
theorem step_use {action : ConfigAction} {use : ConfigUse} (hop : action.operation = .use on use) (hc : s.list[on]? = some c) :
    match use with
    | .clone => (s.step action).1.list = s.list ++ [c]
    | .withHost host => (s.step action).1.list = s.list.set on (c.withHost host)
    | _ => ∃ c', (s.step action).1.list = s.list.set on c' ∧ Continues c (s.step action).2 c' := by
  rw [step_of_use hop hc]
  have hself := (list_set_self hc).symm
  cases use with
  | clone => rfl
  | withHost host => rfl
  | lookUpRole => exact ⟨_, rfl, .of_lookUpRole hop rfl rfl rfl⟩
  | role => exact ⟨_, rfl, .of_lookUpRole hop rfl rfl rfl⟩
  | hostname => exact ⟨_, rfl, .of_lookUpHostname hop rfl rfl rfl⟩
  | set key value => exact ⟨_, rfl, .of_silent hop rfl rfl rfl ⟨rfl, rfl, rfl⟩⟩
  | edit key change => exact ⟨_, rfl, .of_silent hop rfl rfl rfl ⟨rfl, rfl, rfl⟩⟩
  | savedView => exact ⟨c, hself, .of_silent hop rfl rfl rfl ⟨rfl, rfl, rfl⟩⟩
  | region => exact ⟨c, hself, .of_silent hop rfl rfl rfl ⟨rfl, rfl, rfl⟩⟩
  | shown => exact ⟨c, hself, .of_silent hop rfl rfl rfl ⟨rfl, rfl, rfl⟩⟩
  | save file =>
    simp only [Configs.use]
    cases c.save s.files file <;> exact ⟨c, hself, .of_silent hop rfl rfl rfl ⟨rfl, rfl, rfl⟩⟩
  | same other =>
    simp only [Configs.use]
    cases s.list[other]? <;> exact ⟨c, hself, .of_silent hop rfl rfl rfl ⟨rfl, rfl, rfl⟩⟩

theorem step_action (s : Configs) (action : ConfigAction) : (s.step action).2.toConfigAction = action := by
  cases hop : action.operation with
  | make source host => simp only [step, hop]
  | use on use =>
    cases hc : s.list[on]? with
    | none => simp only [step, hop, hc]
    | some c => rw [step_of_use hop hc]

/-- What a use does to the lives of the configurations. -/
theorem record_use {lives : List ConfigLife} {life : ConfigLife} {e : ConfigEntry} {use : ConfigUse}
    (hop : e.operation = .use on use) (hlife : lives[on]? = some life) :
    ConfigLife.record lives e = match use with
      | .clone => lives ++ [life]
      | .withHost host => lives.set on ⟨host, []⟩
      | _ => lives.set on (life.extend e) := by
  simp only [ConfigLife.record, hop, hlife]
  cases use <;> rfl

/-- After an operation the configurations know what was asked in their lives. -/
theorem step_consistent {lives : List ConfigLife} (h : List.Forall₂ Consistent s.list lives) (action : ConfigAction) :
    List.Forall₂ Consistent (s.step action).1.list (ConfigLife.record lives (s.step action).2) := by
  cases hop : action.operation with
  | make source host =>
    rcases make_list s source host with ⟨fields, hmake⟩ | ⟨e, hmake⟩
    · simp only [step, hop, hmake, add, ConfigLife.record]
      exact List.rel_append h (.cons (Consistent.wrap fields host) .nil)
    · simpa only [step, hop, hmake, ConfigLife.record] using h
  | use on use =>
    cases hc : s.list[on]? with
    | none =>
      have hlife : lives[on]? = none := by
        rw [List.getElem?_eq_none_iff] at hc ⊢
        rwa [← h.length_eq]
      simpa only [step, hop, hc, ConfigLife.record, hlife] using h
    | some c =>
      obtain ⟨life, hlife, hcons⟩ := exists_getElem?_of_forall₂ h hc
      have hstep := step_use hop hc
      rw [record_use (by rw [step_action, hop]) hlife]
      cases use with
      | clone =>
        rw [hstep]
        exact List.rel_append h (.cons hcons .nil)
      | withHost host =>
        rw [hstep]
        exact forall₂_set h (Consistent.wrap c.fields host) on
      | _ =>
        obtain ⟨c', hlist, hcont⟩ := hstep
        rw [hlist]
        exact forall₂_set h (hcons.extend hcont) on

theorem step_asksOwn (s : Configs) (action : ConfigAction) : (s.step action).2.AsksOwn := by
  cases hop : action.operation with
  | make source host => exact .of_silent (by simp only [step, hop])
  | use on use =>
    cases hc : s.list[on]? with
    | none => exact .of_silent (by simp only [step, hop, hc])
    | some c =>
      have hstep := step_use hop hc
      cases use with
      | clone => exact .of_silent (by rw [step_of_use hop hc]; rfl)
      | withHost host => exact .of_silent (by rw [step_of_use hop hc]; rfl)
      | _ =>
        obtain ⟨c', -, hcont⟩ := hstep
        exact hcont.asksOwn

/-! ## Runs -/

theorem run_consistent {lives : List ConfigLife} (h : List.Forall₂ Consistent s.list lives) (actions : List ConfigAction) :
    List.Forall₂ Consistent (s.run actions).1.list ((s.run actions).2.foldl ConfigLife.record lives) := by
  induction actions generalizing s lives with
  | nil => exact h
  | cons action rest ih => exact ih (step_consistent h action)

theorem run_actions (s : Configs) (actions : List ConfigAction) :
    (s.run actions).2.map ConfigEntry.toConfigAction = actions := by
  induction actions generalizing s with
  | nil => rfl
  | cons action rest ih => exact congrArg₂ List.cons (step_action s action) (ih _)

theorem run_asksOwn (s : Configs) (actions : List ConfigAction) : ∀ e ∈ (s.run actions).2, e.AsksOwn := by
  induction actions generalizing s with
  | nil => exact List.forall_mem_nil _
  | cons action rest ih => exact List.forall_mem_cons.mpr ⟨step_asksOwn s action, ih _⟩

/-- The beginning of a run is a run of the beginning. -/
theorem run_take (s : Configs) (actions : List ConfigAction) (n : Nat) :
    (s.run (actions.take n)).2 = (s.run actions).2.take n := by
  induction actions generalizing s n with
  | nil => simp [run]
  | cons action rest ih =>
    cases n with
    | zero => rfl
    | succ n => exact congrArg (List.cons _) (ih _ n)

/-- Whatever is done with configurations, an operation asks a host only for what it reads. At every moment of a run, in the life
of each configuration since it got its host, nothing was asked twice and nothing was asked of another host; of all readings of
the role, and of all readings of the name, the first one asked for it and the others gave the same without asking. -/
theorem lookups_of_run (files : FileSystem) (actions : List ConfigAction) :
    ∃ s entries, (Configs.start files).run actions = (s, entries) ∧
      entries.map ConfigEntry.toConfigAction = actions ∧
      (∀ e ∈ entries, e.AsksOwn) ∧
      List.Forall₂ (fun c life => c.host = life.host) s.list (ConfigLife.ofRecord entries) ∧
      ∀ n, ∀ life ∈ ConfigLife.ofRecord (entries.take n),
        life.calls.Nodup ∧
        (∀ call ∈ life.calls, call = NodeCache.role.call life.host ∨ call = NodeCache.hostname.call life.host) ∧
        NodeCache.role.AskedOnce life ∧ NodeCache.hostname.AskedOnce life := by
  refine ⟨_, _, rfl, run_actions _ actions, run_asksOwn _ actions, ?_, fun n life hlife => ?_⟩
  · have hlives := run_consistent (s := start files) List.Forall₂.nil actions
    exact hlives.imp fun c life h => h.host
  · have hlives := run_consistent (s := start files) List.Forall₂.nil (actions.take n)
    rw [run_take] at hlives
    obtain ⟨c, -, h⟩ := exists_left_of_forall₂ hlives hlife
    refine ⟨h.nodup, fun call hcall => ?_, h.role.askedOnce, h.hostname.askedOnce⟩
    rw [← h.host]
    exact (h.known call hcall).imp And.left And.left

end Configs

end ClusterConfig
