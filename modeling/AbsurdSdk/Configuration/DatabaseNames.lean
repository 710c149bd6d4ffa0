import AbsurdSdk.Model.Types
import AbsurdSdk.Syntax.KeywordValues

namespace AbsurdSdk.Configuration

open Model Syntax

def resolveDatabaseUrlWith (explicit : Option String) (env : String → Option String) : String :=
  let nonBlank (value : Option String) : Option String := value.filter fun s => !isBlank s
  match nonBlank explicit with
  | some explicit => explicit
  | none =>
    match nonBlank (env "ABSURD_DATABASE_URL") with
    | some url => url
    | none =>
      match nonBlank (env "DATABASE_URL") with
      | some url => url
      | none =>
        match nonBlank (env "PGDATABASE") with
        | some pgdatabase =>
          if pgdatabase.contains "://" || pgdatabase.contains '=' then pgdatabase
          else s!"dbname={pgdatabase}"
        | none => "postgresql://localhost/absurd"

def Parses (s : String) (params : List (String × String)) : Prop :=
  Reads isWhitespace s.toList (params.map fun p => (p.1.toList, p.2.toList))

lemma separates_isWhitespace : Separates isWhitespace := ⟨by decide, by decide, by decide⟩

lemma isKeyword_dbname : IsKeyword isWhitespace "dbname".toList :=
  ⟨by simp, by simp [isWhitespace]⟩

lemma toList_assign (name : String) :
    (s!"dbname={name}").toList = "dbname".toList ++ '=' :: name.toList := by
  rw [String.toList_append]
  rfl

lemma Parses.unique {s : String} {params params' : List (String × String)} (h : Parses s params)
    (h' : Parses s params') : params = params' := by
  apply List.map_injective_iff.mpr _ (Reads.unique separates_isWhitespace h h')
  intro p q hpq
  obtain ⟨hkey, hvalue⟩ := Prod.mk.inj hpq
  exact Prod.ext (String.toList_injective hkey) (String.toList_injective hvalue)

section Resolve

variable {explicit : Option String} {env : String → Option String} {name : String}

lemma filter_blank {value : Option String} (h : ∀ s ∈ value, isBlank s = true) :
    (value.filter fun s => !isBlank s) = none := by
  cases value with
  | none => rfl
  | some s => simp [Option.filter, h s rfl]

lemma resolve_pgdatabase (hexplicit : ∀ s ∈ explicit, isBlank s = true)
    (habsurd : ∀ s ∈ env "ABSURD_DATABASE_URL", isBlank s = true)
    (hdatabase : ∀ s ∈ env "DATABASE_URL", isBlank s = true) (hname : env "PGDATABASE" = some name)
    (hblank : isBlank name = false) (hurl : name.contains "://" = false)
    (hpairs : name.contains '=' = false) :
    resolveDatabaseUrlWith explicit env = s!"dbname={name}" := by
  have hsome : ((some name).filter fun s => !isBlank s) = some name := by
    simp [Option.filter, hblank]
  simp only [resolveDatabaseUrlWith, filter_blank hexplicit, filter_blank habsurd,
    filter_blank hdatabase, hname, hsome, hurl, hpairs]
  rfl

/-- A plain name in `PGDATABASE` is read as the one parameter `dbname` exactly when it has no white
space and no backslash and does not begin with a single quote. -/
theorem database_name_kept_iff (hexplicit : ∀ s ∈ explicit, isBlank s = true)
    (habsurd : ∀ s ∈ env "ABSURD_DATABASE_URL", isBlank s = true)
    (hdatabase : ∀ s ∈ env "DATABASE_URL", isBlank s = true) (hname : env "PGDATABASE" = some name)
    (hblank : isBlank name = false) (hurl : name.contains "://" = false)
    (hpairs : name.contains '=' = false) :
    (∀ params, Parses (resolveDatabaseUrlWith explicit env) params ↔
      params = [("dbname", name)]) ↔ Bare isWhitespace name.toList := by
  have hne : name.toList ≠ [] := by
    intro hnil
    rw [isBlank, hnil] at hblank
    cases hblank
  rw [resolve_pgdatabase hexplicit habsurd hdatabase hname hblank hurl hpairs]
  have hiff : Parses (s!"dbname={name}") [("dbname", name)] ↔ Bare isWhitespace name.toList := by
    rw [Parses, toList_assign]
    exact reads_assign_iff separates_isWhitespace isKeyword_dbname hne
  rw [← hiff]
  constructor
  · exact fun h => (h _).mpr rfl
  · intro h params
    refine ⟨fun hparams => hparams.unique h, ?_⟩
    rintro rfl
    exact h

end Resolve

section Sample

def environment (name : String) : String → Option String :=
  fun key => if key = "PGDATABASE" then some name else none

lemma environment_pgdatabase (name : String) : environment name "PGDATABASE" = some name := rfl

lemma environment_blank {key : String} (hkey : key ≠ "PGDATABASE") (name : String) :
    ∀ s ∈ environment name key, isBlank s = true := by
  simp [environment, hkey]

theorem database_name_kept_iff_sample :
    Parses (resolveDatabaseUrlWith none (environment "pg_database_name"))
      [("dbname", "pg_database_name")] := by
  have hexplicit : ∀ s ∈ (none : Option String), isBlank s = true := nofun
  have habsurd := environment_blank (show "ABSURD_DATABASE_URL" ≠ "PGDATABASE" by decide)
    "pg_database_name"
  have hdatabase := environment_blank (show "DATABASE_URL" ≠ "PGDATABASE" by decide)
    "pg_database_name"
  have hname := environment_pgdatabase "pg_database_name"
  have hurl : "pg_database_name".contains "://" = false := by
    rw [String.contains_string_eq_false_iff]
    decide
  have hpairs : "pg_database_name".contains '=' = false := by
    rw [String.contains_char_eq]
    decide
  have hbare : Bare isWhitespace "pg_database_name".toList :=
    ⟨by simp, by simp [isWhitespace]⟩
  have hkept := database_name_kept_iff hexplicit habsurd hdatabase hname rfl hurl hpairs
  exact (hkept.mpr hbare _).mpr rfl

theorem backslash_lost :
    Parses (resolveDatabaseUrlWith none (environment "sales\\eu")) [("dbname", "saleseu")] ∧
      ¬ Parses (resolveDatabaseUrlWith none (environment "sales\\eu"))
        [("dbname", "sales\\eu")] := by
  have hexplicit : ∀ s ∈ (none : Option String), isBlank s = true := nofun
  have habsurd := environment_blank (show "ABSURD_DATABASE_URL" ≠ "PGDATABASE" by decide)
    "sales\\eu"
  have hdatabase := environment_blank (show "DATABASE_URL" ≠ "PGDATABASE" by decide) "sales\\eu"
  have hname := environment_pgdatabase "sales\\eu"
  have hurl : "sales\\eu".contains "://" = false := by
    rw [String.contains_string_eq_false_iff]
    decide
  have hpairs : "sales\\eu".contains '=' = false := by
    rw [String.contains_char_eq]
    decide
  have hvalue : ReadsValue isWhitespace "sales\\eu".toList "saleseu".toList [] :=
    readValue_sound (by decide)
  have hparses : Parses "dbname=sales\\eu" [("dbname", "saleseu")] :=
    .assign isKeyword_dbname hvalue
  rw [resolve_pgdatabase hexplicit habsurd hdatabase hname rfl hurl hpairs]
  refine ⟨hparses, ?_⟩
  intro h
  have heq := hparses.unique h
  simp at heq

end Sample

end AbsurdSdk.Configuration
