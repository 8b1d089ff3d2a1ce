import Arvik.Config.Builder
import Mathlib.Data.List.Nodup
import Mathlib.Data.List.TakeWhile

/-!
# What the environment overrides

A variable of the environment overrides a setting by its name: the chosen prefix, the section and
the setting in upper case, joined by underscores, as in `ARVIK_SERVER_PORT`. How its text is read
depends on the type of the setting.

## The description

`Overrides` says so without the builder. It is a relation between a variable, the path of a setting
and a value, and it rests on a table of the settings by their sections (`schema`), each with its
type, and on the ways to write a value of a type (`Reads`). Underscores at the end of the prefix do
not count (`IsBase`). A variable that overrides nothing is no mistake as long as what comes first
after the prefix is not a section (`ValidVar`).

## The builder

The builder looks a variable up in a table of its own, by what follows the prefix in its name.
`overrideOf_eq_some_iff` relates the two: the tables list the same settings under the same names and
types (`map_envOverrides`), no name is listed twice, and the texts of each type are read as they are
written. So the environment is written into the tree setting by setting, in the order in which it is
visited (`applyEnv_of_valid`).
-/

namespace Config

/-! ### The description -/

/-- How the value of a setting is written. -/
inductive FieldType
  | flag
  | text
  | unsigned (bits : ℕ)
  deriving DecidableEq

/-- The settings by their sections. -/
def schema : List (String × List (String × FieldType)) :=
  [("server", [("host", .text), ("port", .unsigned 16), ("workers", .unsigned 64),
      ("backlog", .unsigned 32), ("max_connections", .unsigned 64), ("body_limit", .unsigned 64),
      ("tcp_nodelay", .flag), ("tcp_keepalive_secs", .unsigned 64),
      ("tcp_keepalive_interval_secs", .unsigned 64), ("tcp_keepalive_retries", .unsigned 32),
      ("reuse_port", .flag), ("reuse_address", .flag), ("socket_recv_buffer_size", .unsigned 64),
      ("socket_send_buffer_size", .unsigned 64), ("accept_workers", .unsigned 64)]),
    ("http1", [("keep_alive", .flag), ("half_close", .flag), ("title_case_headers", .flag),
      ("preserve_header_case", .flag), ("pipeline_flush", .flag)]),
    ("http2", [("only", .flag), ("adaptive_window", .flag),
      ("initial_stream_window_size", .unsigned 32),
      ("initial_connection_window_size", .unsigned 32), ("max_concurrent_streams", .unsigned 32),
      ("keep_alive_interval_secs", .unsigned 64), ("keep_alive_timeout_secs", .unsigned 64),
      ("max_frame_size", .unsigned 32), ("max_send_buf_size", .unsigned 64),
      ("max_header_list_size", .unsigned 32)]),
    ("tls", [("backend", .text), ("cert_path", .text), ("key_path", .text),
      ("pkcs12_path", .text), ("pkcs12_password", .text)]),
    ("shutdown", [("drain_timeout_secs", .unsigned 64)])]

/-- The ways to write a value of a type. -/
inductive Reads : FieldType → Str → Scalar → Prop
  | yes {text : Str}
      (h : text.map Text.toAsciiLowercase ∈ ["true", "1", "yes", "on"].map String.toList) :
      Reads .flag text (.bool true)
  | no {text : Str}
      (h : text.map Text.toAsciiLowercase ∈ ["false", "0", "no", "off"].map String.toList) :
      Reads .flag text (.bool false)
  | text (text : Str) : Reads .text text (.string text)
  | unsigned {bits : ℕ} {sign digits : Str} (hsign : sign = [] ∨ sign = ['+'])
      (hne : digits ≠ []) (hdigits : ∀ c ∈ digits, c.isDigit)
      (hlt : Nat.ofDigitChars 10 digits 0 < 2 ^ bits) :
      Reads (.unsigned bits) (sign ++ digits)
        (.number (.posInt (UInt64.ofNat (Nat.ofDigitChars 10 digits 0))))

/-- A prefix, without the underscores it may end in. -/
def IsBase (envPrefix base : Str) : Prop :=
  (∃ n, envPrefix = base ++ List.replicate n '_') ∧ base.getLast? ≠ some '_'

/-- A word in upper case. -/
def upper (word : String) : Str :=
  word.toList.map Char.toUpper

/-- A variable of the environment gives the setting at a path a value. -/
def Overrides (envPrefix : Str) (pair : OsString × OsString) (path : List Str) (value : Scalar) :
    Prop :=
  ∃ base, IsBase envPrefix base ∧ ∃ sect ∈ schema, ∃ field ∈ sect.2, ∃ text,
    pair = (some (['_'].intercalate [base, upper sect.1, upper field.1]), some text) ∧
      path = [sect.1.toList, field.1.toList] ∧ Reads field.2 text value

/-- A variable of someone else: it is not Unicode, its name does not begin with the prefix, or what
comes first after the prefix is no section. -/
def Foreign (envPrefix : Str) (pair : OsString × OsString) : Prop :=
  ∀ base suffix text, IsBase envPrefix base → pair = (some (base ++ '_' :: suffix), some text) →
    ∀ sect ∈ schema, (suffix.takeWhile (· ≠ '_')).map Text.toAsciiLowercase ≠ sect.1.toList

/-- A variable that is no mistake. -/
def ValidVar (envPrefix : Str) (pair : OsString × OsString) : Prop :=
  (∃ path value, Overrides envPrefix pair path value) ∨ Foreign envPrefix pair

/-! ### The prefix -/

theorem isBase_iff {envPrefix base : Str} :
    IsBase envPrefix base ↔ envStart envPrefix = base ++ ['_'] := by
  rw [envStart, List.append_cancel_right_eq, List.reverse_eq_iff]
  constructor
  · rintro ⟨⟨n, rfl⟩, hlast⟩
    rw [List.reverse_append, List.reverse_replicate, List.dropWhile_append_of_pos (by simp)]
    refine List.dropWhile_eq_self_iff.2 fun hpos ↦ ?_
    rw [← List.head?_reverse] at hlast
    simpa [List.head?_eq_getElem?, List.getElem?_eq_getElem hpos] using hlast
  · intro hbase
    refine ⟨⟨(envPrefix.reverse.takeWhile (· = '_')).length, ?_⟩, ?_⟩
    · have htake : envPrefix.reverse.takeWhile (· = '_') =
          List.replicate (envPrefix.reverse.takeWhile (· = '_')).length '_' :=
        List.eq_replicate_of_mem fun c hc ↦ by simpa using List.mem_takeWhile_imp hc
      rw [← List.reverse_inj, List.reverse_append, List.reverse_replicate, ← htake, ← hbase,
        List.takeWhile_append_dropWhile]
    · rw [← List.head?_reverse, ← hbase]
      intro hhead
      simpa [hhead] using List.head?_dropWhile_not (· = '_') envPrefix.reverse

/-! ### The types -/

/-- The type of the values that are read in a way. -/
def Kind.type : Kind → FieldType
  | bool => .flag
  | string => .text
  | number bits _ => .unsigned bits

theorem parseBool_eq_ok_iff {var text : Str} {value : Bool} :
    parseBool var text = .ok value ↔ Reads .flag text (.bool value) := by
  rw [parseBool]
  constructor
  · intro h
    split_ifs at h with hyes hno
    · rw [← Except.ok.inj h]
      exact .yes (List.contains_iff_mem.1 hyes)
    · rw [← Except.ok.inj h]
      exact .no (List.contains_iff_mem.1 hno)
  · intro h
    cases h with
    | yes h => exact if_pos (List.contains_iff_mem.2 h)
    | no h =>
      have hyes : text.map Text.toAsciiLowercase ∉
          ["true", "1", "yes", "on"].map String.toList := by
        generalize text.map Text.toAsciiLowercase = lower at h
        revert lower
        decide
      exact (if_neg fun hmem ↦ hyes (List.contains_iff_mem.1 hmem)).trans
        (if_pos (List.contains_iff_mem.2 h))

/-- A number is read if it is digits behind an optional plus sign, and not too large. -/
theorem parseUnsigned_eq_some_iff {bits n : ℕ} {text : Str} :
    Text.parseUnsigned bits text = some n ↔
      ∃ sign digits, text = sign ++ digits ∧ (sign = [] ∨ sign = ['+']) ∧ digits ≠ [] ∧
        (∀ c ∈ digits, c.isDigit) ∧ Nat.ofDigitChars 10 digits 0 < 2 ^ bits ∧
        Nat.ofDigitChars 10 digits 0 = n := by
  simp only [Text.parseUnsigned, List.all_eq_true, Option.ite_none_right_eq_some,
    Option.some.injEq, and_assoc]
  constructor
  · intro h
    rcases hstrip : Text.stripPrefix ['+'] text with - | digits
    · rw [hstrip] at h
      exact ⟨[], text, rfl, .inl rfl, h⟩
    · rw [hstrip] at h
      exact ⟨['+'], digits, Text.stripPrefix_eq_some_iff.1 hstrip, .inr rfl, h⟩
  · rintro ⟨sign, digits, rfl, rfl | rfl, hne, hdigits, h⟩
    · have hstrip : Text.stripPrefix ['+'] digits = none := by
        refine Option.eq_none_iff_forall_ne_some.2 fun rest hrest ↦ ?_
        have hplus := hdigits '+' (Text.stripPrefix_eq_some_iff.1 hrest ▸ List.mem_cons_self)
        exact absurd hplus (by decide)
      rw [List.nil_append, hstrip]
      exact ⟨hne, hdigits, h⟩
    · rw [Text.stripPrefix_eq_some_iff.2 rfl]
      exact ⟨hne, hdigits, h⟩

theorem parse_number_eq_ok_iff {bits : ℕ} {ty : String} {var text : Str} {value : Scalar} :
    (Kind.number bits ty).parse var text = .ok value ↔ Reads (.unsigned bits) text value := by
  rw [Kind.parse]
  constructor
  · intro h
    rcases hparse : Text.parseUnsigned bits text with - | n
    · rw [hparse] at h
      cases h
    · rw [hparse] at h
      obtain ⟨sign, digits, rfl, hsign, hne, hdigits, hlt, rfl⟩ :=
        parseUnsigned_eq_some_iff.1 hparse
      rw [← Except.ok.inj h]
      exact .unsigned hsign hne hdigits hlt
  · intro h
    cases h with
    | unsigned hsign hne hdigits hlt =>
      rw [parseUnsigned_eq_some_iff.2 ⟨_, _, rfl, hsign, hne, hdigits, hlt, rfl⟩]

/-- A text is parsed in a way exactly to what it is read as. -/
theorem parse_eq_ok_iff {var text : Str} {kind : Kind} {value : Scalar} :
    kind.parse var text = .ok value ↔ Reads kind.type text value := by
  cases kind with
  | bool =>
    rw [Kind.parse, Kind.type]
    constructor
    · intro h
      cases hparse : parseBool var text with
      | error e =>
        rw [hparse] at h
        cases h
      | ok flag =>
        rw [hparse] at h
        cases h
        exact parseBool_eq_ok_iff.1 hparse
    · intro h
      obtain ⟨flag, rfl⟩ : ∃ flag, value = .bool flag := by cases h <;> exact ⟨_, rfl⟩
      rw [parseBool_eq_ok_iff.2 h]
      rfl
  | string =>
    constructor
    · intro h
      rw [← Except.ok.inj h]
      exact .text text
    · intro h
      cases h
      rfl
  | number bits ty => exact parse_number_eq_ok_iff

/-! ### The names -/

/-- The table of the builder lists the settings of the schema, each under its name in upper case. -/
theorem map_envOverrides :
    envOverrides.map (fun entry ↦ (entry.suffix.toList, entry.path, entry.kind.type)) =
      schema.flatMap fun sect ↦ sect.2.map fun field ↦
        (upper sect.1 ++ '_' :: upper field.1, (sect.1, field.1), field.2) := by
  decide

theorem exists_envOverride_iff {suffix : Str} {path : String × String} {type : FieldType} :
    (∃ entry ∈ envOverrides, entry.suffix.toList = suffix ∧ entry.path = path ∧
        entry.kind.type = type) ↔
      ∃ sect ∈ schema, ∃ field ∈ sect.2, upper sect.1 ++ '_' :: upper field.1 = suffix ∧
        (sect.1, field.1) = path ∧ field.2 = type := by
  have hmem := congrArg ((suffix, path, type) ∈ ·) map_envOverrides
  simpa only [List.mem_map, List.mem_flatMap, Prod.mk.injEq, eq_iff_iff] using hmem

/-- No name is listed twice. -/
theorem nodup_suffix_envOverrides : (envOverrides.map (·.suffix.toList)).Nodup := by
  decide

/-- Every name begins with its section. -/
theorem known_of_mem_envOverrides : ∀ entry ∈ envOverrides,
    suffixStartsWithKnownSection entry.suffix.toList = true := by
  decide

/-- In a list whose keys differ, the first element with a key is the one with it. -/
theorem find?_eq_some_iff_of_nodup {α κ : Type*} [DecidableEq κ] {key : α → κ} {xs : List α}
    (h : (xs.map key).Nodup) {k : κ} {x : α} :
    xs.find? (key · = k) = some x ↔ x ∈ xs ∧ key x = k := by
  constructor
  · intro hfind
    exact ⟨List.mem_of_find?_eq_some hfind, by simpa using List.find?_some hfind⟩
  · rintro ⟨hmem, rfl⟩
    rcases hfind : xs.find? (key · = key x) with - | y
    · exact absurd (decide_eq_true rfl) (List.find?_eq_none.1 hfind x hmem)
    · have hkey : key y = key x := by simpa using List.find?_some hfind
      rw [List.inj_on_of_nodup_map h (List.mem_of_find?_eq_some hfind) hmem hkey]

/-- The path of a setting determines the setting, but for its value. -/
theorem eq_of_path_eq {setting : KeyedTree.Put Str Scalar} {sect key : Str}
    (h : setting.path = [sect, key]) : setting = ⟨[sect], key, setting.value⟩ := by
  obtain ⟨segments, last, value⟩ := setting
  obtain ⟨rfl, hlast⟩ := List.append_inj' (show segments ++ [last] = [sect] ++ [key] from h) rfl
  rw [List.singleton_inj.1 hlast]

/-- A variable is read as a setting exactly if the setting goes by its name. -/
theorem parseEnvOverride_eq_some_iff {suffix var text : Str} {setting : KeyedTree.Put Str Scalar} :
    parseEnvOverride suffix var text = .ok (some setting) ↔
      ∃ sect ∈ schema, ∃ field ∈ sect.2, upper sect.1 ++ '_' :: upper field.1 = suffix ∧
        setting.path = [sect.1.toList, field.1.toList] ∧ Reads field.2 text setting.value := by
  rw [parseEnvOverride]
  constructor
  · intro h
    rcases hfind : envOverrides.find? (·.suffix.toList = suffix) with - | entry
    · simp only [hfind] at h
      cases h
    · obtain ⟨hentry, hsuffix⟩ := (find?_eq_some_iff_of_nodup nodup_suffix_envOverrides).1 hfind
      obtain ⟨sect, hsect, field, hfield, hname, hpath, htype⟩ :=
        exists_envOverride_iff.1 ⟨entry, hentry, hsuffix, rfl, rfl⟩
      cases hparse : entry.kind.parse var text with
      | error e =>
        simp only [hfind, hparse] at h
        cases h
      | ok value =>
        simp only [hfind, hparse] at h
        cases h
        refine ⟨sect, hsect, field, hfield, hname, ?_, htype ▸ parse_eq_ok_iff.1 hparse⟩
        rw [← hpath]
        rfl
  · rintro ⟨sect, hsect, field, hfield, hname, hpath, hreads⟩
    obtain ⟨entry, hentry, hsuffix, hentryPath, htype⟩ :=
      exists_envOverride_iff.2 ⟨sect, hsect, field, hfield, hname, rfl, rfl⟩
    rw [(find?_eq_some_iff_of_nodup nodup_suffix_envOverrides).2 ⟨hentry, hsuffix⟩]
    have hparse : entry.kind.parse var text = .ok setting.value :=
      parse_eq_ok_iff.2 (htype ▸ hreads)
    rw [eq_of_path_eq hpath]
    simp only [hparse, hentryPath]
    rfl

/-- What begins with no section is no setting. -/
theorem parseEnvOverride_eq_none {suffix : Str}
    (h : suffixStartsWithKnownSection suffix = false) (var text : Str) :
    parseEnvOverride suffix var text = .ok none := by
  have hfind : envOverrides.find? (·.suffix.toList = suffix) = none := by
    refine List.find?_eq_none.2 fun entry hentry hsuffix ↦ ?_
    rw [← of_decide_eq_true hsuffix, known_of_mem_envOverrides entry hentry] at h
    cases h
  rw [parseEnvOverride, hfind]

theorem suffixStartsWithKnownSection_eq_false {suffix : Str}
    (h : ∀ sect ∈ schema,
      (suffix.takeWhile (· ≠ '_')).map Text.toAsciiLowercase ≠ sect.1.toList) :
    suffixStartsWithKnownSection suffix = false := by
  rw [suffixStartsWithKnownSection]
  refine Bool.eq_false_iff.2 fun hmem ↦ ?_
  have hsections : ∀ word ∈ ["server", "http1", "http2", "shutdown", "tls"].map String.toList,
      ∃ sect ∈ schema, word = sect.1.toList := by
    decide
  obtain ⟨sect, hsect, heq⟩ := hsections _ (List.contains_iff_mem.1 hmem)
  exact h sect hsect heq

/-! ### The environment -/

/-- The setting a variable overrides, as the builder finds it. -/
def overrideOf (envPrefix : Str) : OsString × OsString → Option (KeyedTree.Put Str Scalar)
  | (some var, some value) =>
    if !(envStart envPrefix).isPrefixOf var then none
    else match parseEnvOverride (var.drop (envStart envPrefix).length) var value with
      | .ok setting => setting
      | .error _ => none
  | _ => none

/-- The name of a variable of ours. -/
theorem intercalate_eq (base : Str) (sect key : String) :
    ['_'].intercalate [base, upper sect, upper key] =
      base ++ ['_'] ++ (upper sect ++ '_' :: upper key) := by
  simp [List.intercalate]

theorem overrideOf_append (envPrefix suffix text : Str) :
    overrideOf envPrefix (some (envStart envPrefix ++ suffix), some text) =
      match parseEnvOverride suffix (envStart envPrefix ++ suffix) text with
      | .ok setting => setting
      | .error _ => none := by
  have hstart : (envStart envPrefix).isPrefixOf (envStart envPrefix ++ suffix) = true :=
    List.isPrefixOf_iff_prefix.2 (List.prefix_append _ _)
  rw [overrideOf, hstart, List.drop_left]
  rfl

/-- The builder finds the settings that the variables override. -/
theorem overrideOf_eq_some_iff {envPrefix : Str} {pair : OsString × OsString}
    {setting : KeyedTree.Put Str Scalar} :
    overrideOf envPrefix pair = some setting ↔
      Overrides envPrefix pair setting.path setting.value := by
  constructor
  · intro h
    obtain ⟨name, text⟩ := pair
    rcases name with - | var
    · cases h
    rcases text with - | text
    · cases h
    by_cases hstart : (envStart envPrefix).isPrefixOf var
    · obtain ⟨suffix, rfl⟩ := List.isPrefixOf_iff_prefix.1 hstart
      rw [overrideOf_append] at h
      cases hparse : parseEnvOverride suffix (envStart envPrefix ++ suffix) text with
      | error e =>
        rw [hparse] at h
        cases h
      | ok parsed =>
        rw [hparse] at h
        obtain rfl : parsed = some setting := h
        obtain ⟨sect, hsect, field, hfield, rfl, hpath, hreads⟩ :=
          parseEnvOverride_eq_some_iff.1 hparse
        refine ⟨_, isBase_iff.2 rfl, sect, hsect, field, hfield, text, ?_, hpath, hreads⟩
        rw [intercalate_eq]
        rfl
    · rw [overrideOf, Bool.eq_false_iff.2 hstart] at h
      cases h
  · rintro ⟨base, hbase, sect, hsect, field, hfield, text, rfl, hpath, hreads⟩
    rw [intercalate_eq, ← isBase_iff.1 hbase, overrideOf_append,
      parseEnvOverride_eq_some_iff.2 ⟨sect, hsect, field, hfield, rfl, hpath, hreads⟩]

/-- A variable that is no mistake is read, and where it is no setting it names no section. -/
theorem exists_parseEnvOverride_of_validVar {envPrefix suffix text : Str}
    (h : ValidVar envPrefix (some (envStart envPrefix ++ suffix), some text)) :
    ∃ setting, parseEnvOverride suffix (envStart envPrefix ++ suffix) text = .ok setting ∧
      (setting = none → suffixStartsWithKnownSection suffix = false) := by
  rcases h with ⟨path, value, hoverrides⟩ | hforeign
  · obtain ⟨base, hbase, sect, hsect, field, hfield, text', hpair, rfl, hreads⟩ := hoverrides
    have hfound : overrideOf envPrefix (some (envStart envPrefix ++ suffix), some text) =
        some ⟨[sect.1.toList], field.1.toList, value⟩ :=
      overrideOf_eq_some_iff.2 ⟨base, hbase, sect, hsect, field, hfield, text', hpair, rfl, hreads⟩
    rw [overrideOf_append] at hfound
    cases hparse : parseEnvOverride suffix (envStart envPrefix ++ suffix) text with
    | error e =>
      rw [hparse] at hfound
      cases hfound
    | ok setting =>
      rw [hparse] at hfound
      exact ⟨setting, rfl, fun hnone ↦ by cases hnone.symm.trans hfound⟩
  · have hknown := suffixStartsWithKnownSection_eq_false
      (hforeign _ suffix text (isBase_iff.2 rfl) (by rw [envStart, List.append_assoc]; rfl))
    exact ⟨none, parseEnvOverride_eq_none hknown _ _, fun _ ↦ hknown⟩

/-- The settings an environment overrides, in the order of the variables. -/
def overrides (envPrefix : Str) (env : List (OsString × OsString)) :
    List (KeyedTree.Put Str Scalar) :=
  env.filterMap (overrideOf envPrefix)

theorem mem_overrides_iff {envPrefix : Str} {env : List (OsString × OsString)}
    {setting : KeyedTree.Put Str Scalar} :
    setting ∈ overrides envPrefix env ↔
      ∃ pair ∈ env, Overrides envPrefix pair setting.path setting.value := by
  simp only [overrides, List.mem_filterMap, overrideOf_eq_some_iff]

/-- Writing a list of settings, one after the other. -/
def setAll (root : Value) (settings : List (KeyedTree.Put Str Scalar)) : Value :=
  settings.foldl setPath root

theorem setAll_tree (root : Value) (settings : List (KeyedTree.Put Str Scalar)) :
    (setAll root settings).tree = root.tree.putAll settings := by
  induction settings generalizing root with
  | nil => rfl
  | cons setting settings ih => exact ih (setPath root setting)

theorem applyVars_of_valid {envPrefix : Str} {env : List (OsString × OsString)}
    (h : ∀ pair ∈ env, ValidVar envPrefix pair) (root : Value) :
    applyVars (envStart envPrefix) root [] env =
      .ok (setAll root (overrides envPrefix env), []) := by
  induction env generalizing root with
  | nil => rfl
  | cons pair env ih =>
    obtain ⟨hvalid, henv⟩ := List.forall_mem_cons.1 h
    obtain ⟨name, text⟩ := pair
    rcases name with - | var
    · exact ih henv root
    rcases text with - | text
    · exact ih henv root
    rw [applyVars, overrides, List.filterMap_cons]
    by_cases hstart : (envStart envPrefix).isPrefixOf var
    · rw [hstart]
      obtain ⟨suffix, rfl⟩ := List.isPrefixOf_iff_prefix.1 hstart
      obtain ⟨setting, hparse, hknown⟩ := exists_parseEnvOverride_of_validVar hvalid
      rw [overrideOf_append, List.drop_left, hparse]
      rcases setting with - | setting
      · simp only [hknown rfl]
        exact ih henv root
      · exact ih henv (setPath root setting)
    · rw [overrideOf, Bool.eq_false_iff.2 hstart]
      exact ih henv root

/-- The environment is written setting by setting. -/
theorem applyEnv_of_valid {envPrefix : Str} {env : List (OsString × OsString)}
    (h : ∀ pair ∈ env, ValidVar envPrefix pair) (root : Value) :
    applyEnv root envPrefix env = .ok (setAll root (overrides envPrefix env)) := by
  rw [applyEnv, applyVars_of_valid h]
  exact if_neg (not_not_intro rfl)

end Config
