import Worklog.Proofs.Run
import Worklog.Schema.Statement

namespace Worklog

namespace Address

variable {cs old new : List Char} {s : String}

/-- The text with the first occurrence of a part replaced by another text. -/
def replaceFirst (old new : List Char) : List Char → List Char
  | [] => if old = [] then new else []
  | c :: rest =>
    if old <+: c :: rest then new ++ (c :: rest).drop old.length else c :: replaceFirst old new rest

theorem replaceFirst_append (old new rest : List Char) :
    replaceFirst old new (old ++ rest) = new ++ rest := by
  cases hall : old ++ rest with
  | nil =>
    obtain ⟨hold, hrest⟩ := List.append_eq_nil_iff.mp hall
    rw [replaceFirst, if_pos hold, hrest, List.append_nil]
  | cons c cs =>
    rw [replaceFirst, if_pos (hall ▸ List.prefix_append old rest), ← hall, List.drop_left]

/-- Naming the driver replaces the first bare scheme of an address that begins with one. -/
theorem withDriver_eq (s : String) : withDriver s =
    if bareScheme <+: s.toList then String.ofList (replaceFirst bareScheme drivenScheme s.toList) else s := by
  unfold withDriver
  by_cases h : bareScheme <+: s.toList
  · obtain ⟨rest, hrest⟩ := h
    rw [← hrest, replaceFirst_append, List.drop_left, if_pos (by simp), if_pos (List.prefix_append _ _)]
  · rw [if_neg (by simpa using h), if_neg h]

theorem toList_bare (rest : String) : ("postgresql://" ++ rest).toList = bareScheme ++ rest.toList :=
  String.toList_append

theorem withDriver_bare (rest : String) :
    withDriver ("postgresql://" ++ rest) = "postgresql+asyncpg://" ++ rest := by
  have hdriven : String.ofList drivenScheme = "postgresql+asyncpg://" := String.ofList_toList
  rw [withDriver_eq, toList_bare, if_pos (List.prefix_append _ _), replaceFirst_append, String.ofList_append,
    hdriven, @String.ofList_toList rest]

theorem withDriver_of_not_bare (h : ¬ bareScheme <+: s.toList) : withDriver s = s := by
  rw [withDriver_eq, if_neg h]

/-- An address with a driver does not begin with the bare scheme. -/
theorem not_bare_withDriver (s : String) : ¬ bareScheme <+: (withDriver s).toList := by
  rw [withDriver_eq]
  by_cases h : bareScheme <+: s.toList
  · obtain ⟨rest, hrest⟩ := h
    rw [← hrest, if_pos (List.prefix_append _ _), replaceFirst_append, String.toList_ofList]
    intro hbare
    have hdriven := List.prefix_of_prefix_length_le hbare (List.prefix_append drivenScheme rest) (by decide)
    exact absurd hdriven (by decide)
  · rwa [if_neg h]

theorem bare_iff : bareScheme <+: s.toList ↔ ∃ rest, s = "postgresql://" ++ rest := by
  constructor
  · rintro ⟨rest, hrest⟩
    refine ⟨String.ofList rest, String.toList_injective ?_⟩
    rw [toList_bare, String.toList_ofList, hrest]
  · rintro ⟨rest, rfl⟩
    exact ⟨rest.toList, (toList_bare rest).symm⟩

end Address

namespace Settings

variable {environment : Environment} {file : Option String} {settings : Settings} {v : String}

/-- The environment gives the address of the database, under the one spelling of its name. -/
structure GivesAddress (environment : Environment) (v : String) : Prop where
  mem : ("DATABASE_URL", v) ∈ environment
  only : ∀ e ∈ environment, Case.lower e.1 = "database_url" → e = ("DATABASE_URL", v)

theorem lower_variable : Case.lower "DATABASE_URL" = "database_url" := by decide +kernel

theorem lower_setting : Case.lower "database_url" = "database_url" := by decide +kernel

/-- The service finds the address in the environment, in whatever place. -/
theorem GivesAddress.lookup (h : GivesAddress environment v) :
    lookup? {} "database_url" (environment.map fun e => (e.1, some e.2)) = some v := by
  have hname : Options.variableName {} "database_url" = "database_url" := lower_setting
  rw [lookup?, hname]
  cases hfind : ((environment.map fun e => (e.1, some e.2)).reverse.find? fun e =>
      Options.counts {} e.2 && Options.compared {} e.1 = "database_url") with
  | none =>
    have hmem : ("DATABASE_URL", some v) ∈ (environment.map fun e => (e.1, some e.2)).reverse :=
      List.mem_reverse.mpr (List.mem_map.mpr ⟨_, h.mem, rfl⟩)
    have hpassed := List.find?_eq_none.mp hfind _ hmem
    simp [Options.counts, Options.compared, lower_variable] at hpassed
  | some found =>
    have hname := List.find?_some hfind
    obtain ⟨e, he, rfl⟩ := List.mem_map.mp (List.mem_reverse.mp (List.mem_of_find?_eq_some hfind))
    have hlower : Case.lower e.1 = "database_url" := by
      simpa [Options.counts, Options.compared] using hname
    rw [h.only e he hlower]
    rfl

/-- The changes find it as well. -/
theorem GivesAddress.find (h : GivesAddress environment v) :
    environment.find? (·.1 = "DATABASE_URL") = some ("DATABASE_URL", v) := by
  cases hfind : environment.find? (·.1 = "DATABASE_URL") with
  | none => simpa using List.find?_eq_none.mp hfind _ h.mem
  | some found =>
    have hname : found.1 = "DATABASE_URL" := by simpa using List.find?_some hfind
    rw [h.only found (List.mem_of_find?_eq_some hfind) (hname ▸ lower_variable)]

/-- The values of a source begin with that of the first name. -/
theorem fromVariables_cons_of_lookup {o : Options} {source : Source} {name : String} {rest : List String}
    {entries : List (String × Option String)} {given : Given} (hnull : o.nullText = none)
    (hlist : name ≠ listName) (hlookup : lookup? o name entries = some v)
    (h : fromVariables o source entries (name :: rest) = .ok given) :
    given.find? (·.1 = name) = some (name, .str v) := by
  simp only [fromVariables, hlookup, hnull, reduceCtorEq, if_false, if_neg hlist, pure_bind] at h
  obtain ⟨more, -, h⟩ := except_bind_eq_ok_iff.mp h
  cases h
  simp

/-- What the settings say of the address if only the first of several sources says something. -/
theorem databaseUrl_of_ofSources {sources : List Given} {unknown : List String}
    (hpick : pick sources "database_url" = some (.str v))
    (h : ofSources sources unknown = .ok settings) : settings.databaseUrl = Address.withDriver v := by
  have hread {α : Type} (default : α) (reader : Json → Except (List Issue) α) :
      read default "database_url" reader sources =
        (reader (.str v)).mapError fun is => is.map (Issue.within "database_url") := by
    rw [read, hpick]
  unfold ofSources at h
  dsimp only at h
  rw [hread] at h
  dsimp only [text, whole, Except.mapError, Except.map] at h
  split at h
  · next hurl _ _ _ _ _ _ =>
    cases h
    exact (Except.ok.inj hurl).symm
  · cases h

/-- The settings of a process that is given nothing directly. -/
theorem databaseUrl_of_load (henv : GivesAddress environment v)
    (h : load [] environment file = .ok settings) : settings.databaseUrl = Address.withDriver v := by
  unfold load at h
  obtain ⟨fromEnvironment, henvironment, h⟩ := except_bind_eq_ok_iff.mp h
  obtain ⟨fromFile, -, h⟩ := except_bind_eq_ok_iff.mp h
  have hfound := fromVariables_cons_of_lookup rfl (by decide) henv.lookup henvironment
  refine databaseUrl_of_ofSources ?_ (except_mapError_eq_ok_iff.mp h)
  rw [pick, List.findSome?_cons, List.findSome?_cons, hfound]
  rfl

/-- Where the environment gives an address and no other spelling of its name is set, the service and the
    changes of its database are for one address, whatever the files say. It is the given one with the first
    bare scheme replaced if it begins with that, so that it has the driver and all else stays; nothing is left
    to be replaced. -/
theorem service_and_changes_agree (henv : GivesAddress environment v) (hne : v ≠ "")
    (hload : load [] environment file = .ok settings) (useFile : Bool) :
    Statement.address? environment useFile = some settings.databaseUrl ∧
    settings.databaseUrl = (if Address.bareScheme <+: v.toList then
      String.ofList (Address.replaceFirst Address.bareScheme Address.drivenScheme v.toList) else v) ∧
    (∀ rest, v = "postgresql://" ++ rest → settings.databaseUrl = "postgresql+asyncpg://" ++ rest) ∧
    ((∀ rest, v ≠ "postgresql://" ++ rest) → settings.databaseUrl = v) ∧
    (∀ rest, settings.databaseUrl ≠ "postgresql://" ++ rest) ∧
    Address.withDriver settings.databaseUrl = settings.databaseUrl := by
  rw [databaseUrl_of_load henv hload]
  refine ⟨?_, Address.withDriver_eq v, ?_, fun hnot => ?_, fun rest hbare => ?_, ?_⟩
  · have hfilter : (some ("DATABASE_URL", v)).filter (fun e => decide (e.2 ≠ "")) =
        some ("DATABASE_URL", v) := by simp [Option.filter, hne]
    rw [Statement.address?, henv.find, hfilter]
  · rintro rest rfl
    exact Address.withDriver_bare rest
  · refine Address.withDriver_of_not_bare fun hbare => ?_
    obtain ⟨rest, hrest⟩ := Address.bare_iff.mp hbare
    exact hnot rest hrest
  · exact Address.not_bare_withDriver v (Address.bare_iff.mpr ⟨rest, hbare⟩)
  · exact Address.withDriver_of_not_bare (Address.not_bare_withDriver v)

/-- An address that holds the bare scheme twice, against another one in the file of variables. -/
theorem twofold_address_agrees :
    let environment : Environment := [("TZ", "UTC"), ("DATABASE_URL", "postgresql://a/postgresql://b")]
    let file := some "database_url=sqlite+aiosqlite:///other.db\n"
    ∃ settings, load [] environment file = .ok settings ∧
      settings.databaseUrl = "postgresql+asyncpg://a/postgresql://b" ∧
      Statement.address? environment true = some settings.databaseUrl := by
  intro environment file
  have henv : GivesAddress environment "postgresql://a/postgresql://b" := by
    refine ⟨by decide, fun e he hlower => ?_⟩
    obtain rfl | rfl : e = ("TZ", "UTC") ∨ e = ("DATABASE_URL", "postgresql://a/postgresql://b") := by
      simpa [environment] using he
    · exact absurd hlower (by decide +kernel)
    · rfl
  have hload : (load [] environment file).toOption.isSome = true := by decide +kernel
  obtain ⟨settings, hsome⟩ := Option.isSome_iff_exists.mp hload
  have hsettings : load [] environment file = .ok settings := by
    cases hresult : load [] environment file <;> simp_all [Except.toOption]
  obtain ⟨hagree, -, hbare, -⟩ := service_and_changes_agree henv (by decide) hsettings true
  exact ⟨settings, hsettings, hbare "a/postgresql://b" rfl, hagree⟩

end Settings
end Worklog
