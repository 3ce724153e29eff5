import ClusterConfig.Proofs.LogSetUp
import ClusterConfig.Proofs.Namespace

/-!
# Which events the settings let pass

A setting names a limit by one of nine names, in letters of any case and with blanks around it. The filter of two limits holds the
one of the helpers against every target that starts with their name, which other targets than theirs may do, and the general one
against all others.
-/

namespace ClusterConfig

namespace Text

/-! ## Blanks and letters -/

/-- Nothing in the range of the ASCII letters is a blank. -/
theorem isBlank_eq_false {c : Char} (hlow : 65 ≤ c.toNat) (hhigh : c.toNat ≤ 122) : isBlank c = false := by
  rw [← Bool.not_eq_true]
  simp only [isBlank, Bool.or_eq_true, Bool.and_eq_true, decide_eq_true_iff, beq_iff_eq]
  omega

/-- A letter that becomes another one was no blank and does not become one. -/
theorem isBlank_toLower (c : Char) : isBlank c.toLower = isBlank c := by
  unfold Char.toLower
  split
  · rename_i h
    have hlow : 65 ≤ c.toNat := UInt32.le_iff_toNat_le.mp h.1
    have hhigh : c.toNat ≤ 90 := UInt32.le_iff_toNat_le.mp h.2
    have hlower : (c.val + ('a'.val - 'A'.val)).toNat = c.toNat + 32 := by
      rw [UInt32.toNat_add]
      exact Nat.mod_eq_of_lt (by simp; omega)
    rw [isBlank_eq_false hlow (by omega)]
    refine isBlank_eq_false ?_ ?_
    · exact (Nat.le_add_right_of_le hlow).trans_eq hlower.symm
    · exact hlower.trans_le (Nat.add_le_add_right hhigh 32)
  · rfl

theorem lowerAscii_eq (s : String) : lowerAscii s = .ofList (s.toList.map Char.toLower) := by
  rw [lowerAscii, ← String.toList_map, String.ofList_toList]

/-- Of a text with blanks around it, and none in it, the text is left. -/
theorem trim_append {before name after : String} (hbefore : ∀ c ∈ before.toList, isBlank c = true)
    (hafter : ∀ c ∈ after.toList, isBlank c = true) (hname : ∀ c ∈ name.toList, isBlank c = false) :
    trim (before ++ name ++ after) = name := by
  have hkept : ∀ l : List Char, (∀ c ∈ l, isBlank c = false) → l ≠ [] → ∀ rest, (l ++ rest).dropWhile isBlank = l ++ rest := by
    intro l hl hne rest
    obtain ⟨c, l, rfl⟩ := List.exists_cons_of_ne_nil hne
    rw [List.cons_append, List.dropWhile_cons_of_neg (by simp [hl c List.mem_cons_self])]
  have hafter' : ∀ c ∈ after.toList.reverse, isBlank c = true := fun c hc => hafter c (List.mem_reverse.mp hc)
  have hname' : ∀ c ∈ name.toList.reverse, isBlank c = false := fun c hc => hname c (List.mem_reverse.mp hc)
  rw [trim, String.toList_append, String.toList_append, List.append_assoc, List.dropWhile_append_of_pos hbefore]
  by_cases hempty : name.toList = []
  · have hdrop : after.toList.dropWhile isBlank = [] := List.dropWhile_eq_nil_iff.mpr hafter
    rw [hempty, List.nil_append, hdrop, ← String.ofList_toList (s := name), hempty]
    rfl
  · have hdrop := hkept name.toList.reverse hname' (by simpa using hempty) []
    rw [List.append_nil] at hdrop
    rw [hkept name.toList hname hempty, List.reverse_append, List.dropWhile_append_of_pos hafter', hdrop, List.reverse_reverse,
      String.ofList_toList]

/-- A text is what is left of it, with blanks around it. -/
theorem append_trim (s : String) :
    ∃ before after, s = before ++ trim s ++ after ∧ (∀ c ∈ before.toList, isBlank c = true) ∧
      ∀ c ∈ after.toList, isBlank c = true := by
  let rest := s.toList.dropWhile isBlank
  refine ⟨.ofList (s.toList.takeWhile isBlank), .ofList (rest.reverse.takeWhile isBlank).reverse, ?_, ?_, ?_⟩
  · have hrest : rest = (rest.reverse.dropWhile isBlank).reverse ++ (rest.reverse.takeWhile isBlank).reverse := by
      rw [← List.reverse_append, List.takeWhile_append_dropWhile, List.reverse_reverse]
    have hlist : s.toList = s.toList.takeWhile isBlank ++
        ((rest.reverse.dropWhile isBlank).reverse ++ (rest.reverse.takeWhile isBlank).reverse) := by
      rw [← hrest, List.takeWhile_append_dropWhile]
    rw [trim, ← String.ofList_append, ← String.ofList_append, List.append_assoc, ← hlist, String.ofList_toList]
  · intro c hc
    rw [String.toList_ofList] at hc
    exact List.mem_takeWhile_imp hc
  · intro c hc
    rw [String.toList_ofList, List.mem_reverse] at hc
    exact List.mem_takeWhile_imp hc

end Text

namespace LevelLimit

/-! ## Names of limits -/

/-- The setting names the limit: by one of its names in letters of any case, with blanks around it. -/
def Names (setting : String) (limit : LevelLimit) : Prop :=
  ∃ before name after, setting = before ++ name ++ after ∧ (∀ c ∈ before.toList, Text.isBlank c = true) ∧
    (∀ c ∈ after.toList, Text.isBlank c = true) ∧ (Text.lowerAscii name, limit) ∈ names

/-- No blank is in a name. -/
theorem isBlank_of_mem_names {name : String} {limit : LevelLimit} (h : (Text.lowerAscii name, limit) ∈ names) :
    ∀ c ∈ name.toList, Text.isBlank c = false := by
  have hnames : (names.all fun e => e.1.toList.all fun c => !Text.isBlank c) = true := by decide
  intro c hc
  rw [← Text.isBlank_toLower, ← Bool.not_eq_true']
  refine List.all_eq_true.mp (List.all_eq_true.mp hnames _ h) c.toLower ?_
  rw [Text.lowerAscii_eq, String.toList_ofList]
  exact List.mem_map_of_mem hc

/-- Without blanks a name is a setting. -/
theorem names_of_mem {name : String} {limit : LevelLimit} (h : (Text.lowerAscii name, limit) ∈ names) : Names name limit :=
  ⟨"", name, "", by simp, by simp, by simp, h⟩

/-- A setting is understood exactly where it names a limit, as this limit. -/
theorem ofName_eq_some {setting : String} {limit : LevelLimit} : ofName? setting = some limit ↔ Names setting limit := by
  constructor
  · intro h
    obtain ⟨before, after, hsetting, hbefore, hafter⟩ := Text.append_trim setting
    exact ⟨before, Text.trim setting, after, hsetting, hbefore, hafter, Namespace.mem_of_lookup h⟩
  · rintro ⟨before, name, after, rfl, hbefore, hafter, hname⟩
    have hnodup : (names.map Prod.fst).Nodup := by decide
    rw [ofName?, normalized, Text.trim_append hbefore hafter (isBlank_of_mem_names hname)]
    exact Namespace.lookup_of_mem hnodup hname

end LevelLimit

namespace LogOptions

/-- The settings name the limits, which are one and the same where the helpers have none of their own. -/
inductive Names (options : LogOptions) : LevelLimit → LevelLimit → Prop where
  | same {limit : LevelLimit} : options.helperLevel = none → LevelLimit.Names options.level limit → Names options limit limit
  | own {general helpers : LevelLimit} {setting : String} : options.helperLevel = some setting →
      LevelLimit.Names options.level general → LevelLimit.Names setting helpers → Names options general helpers

end LogOptions

namespace LogFilter

/-! ## What passes -/

/-- There is a filter exactly where all settings name limits, and it is the filter of these. -/
theorem ofOptions_eq_ok {options : LogOptions} {filter : LogFilter} :
    ofOptions options = .ok filter ↔ ∃ general helpers, options.Names general helpers ∧ filter = ofLimits general helpers := by
  obtain ⟨level, helperLevel, file⟩ := options
  cases helperLevel with
  | none =>
    simp only [ofOptions, bind_eq_ok, pure_eq_ok, LevelLimit.parse_eq_ok, LevelLimit.ofName_eq_some]
    constructor
    · rintro ⟨limit, hlimit, _, rfl, rfl⟩
      exact ⟨limit, limit, .same rfl hlimit, rfl⟩
    · rintro ⟨general, helpers, hnames, rfl⟩
      cases hnames with
      | same _ hlimit => exact ⟨general, hlimit, general, rfl, rfl⟩
      | own hsome => cases hsome
  | some setting =>
    simp only [ofOptions, bind_eq_ok, pure_eq_ok, LevelLimit.parse_eq_ok, LevelLimit.ofName_eq_some]
    constructor
    · rintro ⟨general, hgeneral, helpers, hhelpers, rfl⟩
      exact ⟨general, helpers, .own rfl hgeneral hhelpers, rfl⟩
    · rintro ⟨general, helpers, hnames, rfl⟩
      cases hnames with
      | same hnone => cases hnone
      | own hsome hgeneral hhelpers =>
        obtain rfl := Option.some.inj hsome
        exact ⟨general, hgeneral, helpers, hhelpers, rfl⟩

/-- Against a target the filter of two limits holds that of the helpers if the target starts with their name. -/
theorem limitFor_ofLimits (general helpers : LevelLimit) (target : String) :
    (ofLimits general helpers).limitFor target =
      if Event.helpers.toList <+: target.toList then helpers else general := by
  by_cases h : Event.helpers.toList <+: target.toList
  · have hstarts : startsWith target Event.helpers = true := List.isPrefixOf_iff_prefix.mpr h
    simp [limitFor, ofLimits, hstarts, h]
  · have hstarts : startsWith target Event.helpers = false := by
      rw [← Bool.not_eq_true]
      exact fun hs => h (List.isPrefixOf_iff_prefix.mp hs)
    have hall : startsWith target "" = true := rfl
    simp [limitFor, ofLimits, hstarts, hall, h]

/-- The widest limit of the filter is one of the two and not below the other. -/
theorem widest_ofLimits (general helpers : LevelLimit) :
    ((ofLimits general helpers).widest = general ∨ (ofLimits general helpers).widest = helpers) ∧
      (ofLimits general helpers).widest.rank = Nat.max general.rank helpers.rank := by
  have hwidest : (ofLimits general helpers).widest = helpers.max general := by
    have hoff : LevelLimit.off.max helpers = helpers := if_pos (Nat.zero_le _)
    simp [widest, ofLimits, hoff]
  rw [hwidest, LevelLimit.max]
  split
  · rename_i h
    exact ⟨.inl rfl, (Nat.max_eq_left h).symm⟩
  · rename_i h
    exact ⟨.inr rfl, (Nat.max_eq_right (by omega)).symm⟩

/-- Settings that name limits give a filter, which goes by the limit of the helpers for every target that starts with their name and
by the general one for all others. The widest limit is the wider one of the two. -/
theorem ofOptions_passes {options : LogOptions} {general helpers : LevelLimit} (h : options.Names general helpers) :
    ∃ filter, ofOptions options = .ok filter ∧
      (∀ target level, filter.passes target level = true ↔
        level.rank ≤ (if "slurm_gcp_config".toList <+: target.toList then helpers else general).rank) ∧
      (filter.widest = general ∨ filter.widest = helpers) ∧
      filter.widest.rank = Nat.max general.rank helpers.rank := by
  obtain ⟨hone, hwidest⟩ := widest_ofLimits general helpers
  refine ⟨ofLimits general helpers, ofOptions_eq_ok.mpr ⟨general, helpers, h, rfl⟩, ?_, hone, hwidest⟩
  intro target level
  rw [passes, limitFor_ofLimits, LevelLimit.passes, decide_eq_true_iff, Event.helpers]

/-- A wider limit for the helpers, both in other spellings. -/
theorem ofOptions_passes_warning :
    LogOptions.Names ⟨" Warning ", some "DEBUG\n", none⟩ (.upTo .warn) (.upTo .debug) ∧
      ∃ filter, ofOptions ⟨" Warning ", some "DEBUG\n", none⟩ = .ok filter ∧
        filter.passes "slurm_gcp_config::process" .debug = true ∧ filter.passes "resume" .info = false ∧
        filter.widest.rank = Level.debug.rank := by
  have hgeneral : LevelLimit.Names " Warning " (.upTo .warn) := by
    refine ⟨" ", "Warning", " ", rfl, by simp [Text.isBlank], by simp [Text.isBlank], ?_⟩
    rw [Text.lowerAscii_eq]
    decide
  have hhelpers : LevelLimit.Names "DEBUG\n" (.upTo .debug) := by
    refine ⟨"", "DEBUG", "\n", rfl, by simp, by simp [Text.isBlank], ?_⟩
    rw [Text.lowerAscii_eq]
    decide
  have hnames : LogOptions.Names ⟨" Warning ", some "DEBUG\n", none⟩ (.upTo .warn) (.upTo .debug) :=
    .own rfl hgeneral hhelpers
  obtain ⟨filter, hfilter, hpasses, -, hwidest⟩ := ofOptions_passes hnames
  refine ⟨hnames, filter, hfilter, (hpasses _ _).mpr (by decide), ?_, hwidest⟩
  rw [← Bool.not_eq_true, hpasses]
  decide

/-- The limit of the helpers does not hold for them alone, but also for a target whose name begins like theirs. -/
theorem not_passes_within_helpers :
    ¬∀ (options : LogOptions) (general helpers : LevelLimit) (filter : LogFilter) (target : String) (level : Level),
      options.Names general helpers → ofOptions options = .ok filter →
      (filter.passes target level = true ↔ level.rank ≤
        (if target = "slurm_gcp_config" ∨ "slurm_gcp_config::".toList <+: target.toList then helpers else general).rank) := by
  intro hall
  let options : LogOptions := ⟨"error", some "debug", none⟩
  have hgeneral : LevelLimit.Names "error" (.upTo .error) :=
    LevelLimit.names_of_mem (by rw [Text.lowerAscii_eq]; decide)
  have hhelpers : LevelLimit.Names "debug" (.upTo .debug) :=
    LevelLimit.names_of_mem (by rw [Text.lowerAscii_eq]; decide)
  have hnames : options.Names (.upTo .error) (.upTo .debug) := .own rfl hgeneral hhelpers
  have hfilter : ofOptions options = .ok (ofLimits (.upTo .error) (.upTo .debug)) := ofOptions_eq_ok.mpr ⟨_, _, hnames, rfl⟩
  have hpasses := hall options _ _ _ "slurm_gcp_configuration" .debug hnames hfilter
  exact absurd (hpasses.mp (by decide)) (by decide)

end LogFilter

end ClusterConfig
