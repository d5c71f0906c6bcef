import Mathlib.Data.List.Infix
import MeshConsole.Command.Flag

/-!
# Flags that were given

A parsed flag has a value only if an argument names the flag, and it is the
value of a text that the arguments give for it (`parseFlags_given`).
-/

namespace MeshConsole

theorem Text.eq_of_cut? (h : Text.cut? b t = some (before, after)) : t = before ++ b :: after := by
  rw [Text.cut?, List.span_eq_takeWhile_dropWhile] at h
  have hfirst := List.head?_dropWhile_not (· != b) t
  cases hdrop : t.dropWhile (· != b) with
  | nil => simp [hdrop] at h
  | cons c rest =>
    simp only [hdrop, Option.some.injEq, Prod.mk.injEq] at h
    obtain ⟨rfl, rfl⟩ := h
    have hc : c = b := by simpa [hdrop] using hfirst
    rw [← hc, ← hdrop, hc, List.takeWhile_append_dropWhile]

namespace Command

/-- The argument names the flag, in full or by its letter. -/
inductive FlagSpec.NamedBy (spec : FlagSpec) : Text → Prop
  | full : NamedBy spec (Ascii.minus :: Ascii.minus :: spec.name)
  | equals {value} :
      NamedBy spec (Ascii.minus :: Ascii.minus :: (spec.name ++ Ascii.equals :: value))
  | short {argument letter} : letter ∈ argument → spec.short = some letter → NamedBy spec argument

/-- The texts that arguments give for a flag. -/
inductive FlagSpec.Given (spec : FlagSpec) (arguments : List Text) : Text → Prop
  | inside {argument source} : argument ∈ arguments → spec.NamedBy argument →
      source <:+ argument → Given spec arguments source
  | next {argument source} : [argument, source] <:+: arguments → spec.NamedBy argument →
      Given spec arguments source
  | switch {argument} : argument ∈ arguments → spec.NamedBy argument → spec.kind = .bool →
      Given spec arguments "true"

/-- Every flag has the value of a text that is given for it. -/
def Parsed.Given (specs : List FlagSpec) (arguments : List Text) (p : Parsed) : Prop :=
  ∀ name value, p.flags.get? name = some value →
    ∃ spec ∈ specs, spec.name = name ∧
      ∃ source, spec.Given arguments source ∧ spec.kind.read source = .ok value

/-- What is kept by a flag: values are those of texts that were given, and the
arguments left are at the end of all arguments. -/
def Keeps (specs : List FlagSpec) (arguments : List Text) (next : Parsed × List Text) : Prop :=
  next.1.Given specs arguments ∧ next.2 <:+ arguments

section
variable {specs : List FlagSpec} {arguments rest : List Text} {p q : Parsed} {spec : FlagSpec}
  {next : Parsed × List Text} {argument : Text}

theorem Parsed.Given.set (hp : p.Given specs arguments) (hspec : spec ∈ specs)
    (hgiven : spec.Given arguments source) (h : p.set spec source = .ok q) :
    q.Given specs arguments := by
  rw [Parsed.set] at h
  split at h
  · rename_i read hread
    cases h
    intro name value hvalue
    rw [Table.get?_set] at hvalue
    split at hvalue
    · cases hvalue
      exact ⟨spec, hspec, ‹_›, source, hgiven, hread⟩
    · exact hp name value hvalue
  · cases h

theorem keeps_set (hp : p.Given specs arguments) (hspec : spec ∈ specs)
    (hgiven : spec.Given arguments source) (hrest : rest <:+ arguments)
    (h : (p.set spec source).map (·, rest) = .ok next) : Keeps specs arguments next := by
  cases hset : p.set spec source with
  | error why => simp [hset, Except.map] at h
  | ok q =>
    simp only [hset, Except.map, Except.ok.injEq] at h
    subst h
    exact ⟨hp.set hspec hgiven hset, hrest⟩

theorem mem_of_suffix (hrest : argument :: rest <:+ arguments) : argument ∈ arguments :=
  hrest.subset List.mem_cons_self

theorem rest_of_suffix (hrest : argument :: rest <:+ arguments) : rest <:+ arguments :=
  (List.suffix_cons argument rest).trans hrest

theorem next_of_suffix (hrest : argument :: source :: rest <:+ arguments) :
    [argument, source] <:+: arguments :=
  (List.prefix_append [argument, source] rest).isInfix.trans hrest.isInfix

theorem parseLong_keeps (hp : p.Given specs arguments)
    (hrest : (Ascii.minus :: Ascii.minus :: body) :: rest <:+ arguments)
    (h : parseLong specs p (Ascii.minus :: Ascii.minus :: body) rest = .ok next) :
    Keeps specs arguments next := by
  have hmem := mem_of_suffix hrest
  rw [parseLong, List.drop_succ_cons, List.drop_succ_cons, List.drop_zero] at h
  cases body with
  | nil => cases h
  | cons first tail =>
    dsimp only at h
    split at h
    · cases h
    · cases hcut : Text.cut? Ascii.equals (first :: tail) with
      | none =>
        simp only [hcut] at h
        split at h
        · split at h <;> cases h
        · rename_i spec hfind
          have hspec := List.mem_of_find?_eq_some hfind
          have hname : spec.name = first :: tail := by simpa using List.find?_some hfind
          have hnamed : spec.NamedBy (Ascii.minus :: Ascii.minus :: first :: tail) :=
            hname ▸ .full
          split at h
          · rename_i hsome
            cases hsome
          · exact keeps_set hp hspec (.switch hmem hnamed ‹_›) (rest_of_suffix hrest) h
          · exact keeps_set hp hspec (.next (next_of_suffix hrest) hnamed)
              (rest_of_suffix (rest_of_suffix hrest)) h
          · cases h
      | some parts =>
        obtain ⟨name, value⟩ := parts
        simp only [hcut] at h
        split at h
        · split at h <;> cases h
        · rename_i spec hfind
          have hspec := List.mem_of_find?_eq_some hfind
          have hname : spec.name = name := by simpa using List.find?_some hfind
          rw [Text.eq_of_cut? hcut, ← hname] at hmem
          refine keeps_set hp hspec (.inside hmem ?_ ?_) (rest_of_suffix hrest) h
          · exact .equals
          · exact ⟨Ascii.minus :: Ascii.minus :: (spec.name ++ [Ascii.equals]), by simp⟩

theorem parseShort_keeps (hp : p.Given specs arguments) (hrest : argument :: rest <:+ arguments)
    (hletters : letters <:+ argument) (h : parseShort specs p rest letters = .ok next) :
    Keeps specs arguments next := by
  induction letters generalizing p with
  | nil =>
    cases h
    exact ⟨hp, rest_of_suffix hrest⟩
  | cons letter more ih =>
    have hmem := mem_of_suffix hrest
    have hmore : more <:+ argument := (List.suffix_cons letter more).trans hletters
    rw [parseShort] at h
    split at h
    · cases h
      exact ⟨hp, rest_of_suffix hrest⟩
    · split at h
      · split at h <;> cases h
      · rename_i spec hfind
        have hspec := List.mem_of_find?_eq_some hfind
        have hnamed : spec.NamedBy argument :=
          .short (hletters.subset List.mem_cons_self) (by simpa using List.find?_some hfind)
        split at h
        · exact keeps_set hp hspec
            (.inside hmem hnamed ((List.suffix_cons ..).trans hmore)) (rest_of_suffix hrest) h
        · split at h
          · rename_i hset
            exact ih (hp.set hspec (.switch hmem hnamed ‹_›) hset) hmore h
          · cases h
        · exact keeps_set hp hspec (.inside hmem hnamed hmore) (rest_of_suffix hrest) h
        · exact keeps_set hp hspec (.next (next_of_suffix hrest) hnamed)
            (rest_of_suffix (rest_of_suffix hrest)) h
        · cases h

theorem parseFrom_given (hp : p.Given specs arguments) (hrest : rest <:+ arguments)
    (h : parseFrom specs fuel p rest = .ok q) : q.Given specs arguments := by
  induction fuel generalizing p rest with
  | zero =>
    cases h
    exact hp
  | succ fuel ih =>
    cases rest with
    | nil =>
      cases h
      exact hp
    | cons argument rest =>
      rw [parseFrom.eq_def] at h
      dsimp only at h
      split at h
      · cases h
        exact hp
      · split at h
        · obtain ⟨hnext, hleft⟩ := parseLong_keeps hp hrest ‹_›
          exact ih hnext hleft h
        · cases h
      · split at h
        · obtain ⟨hnext, hleft⟩ := parseShort_keeps hp hrest (List.suffix_cons ..) ‹_›
          exact ih hnext hleft h
        · cases h
      · exact ih (p := { p with arguments := p.arguments ++ [argument] }) hp
          (rest_of_suffix hrest) h

/-- A flag has a value only if the arguments give it one. -/
theorem parseFlags_given (h : parseFlags specs arguments = .ok p) : p.Given specs arguments :=
  parseFrom_given (fun _ _ hnone => by cases hnone) (List.suffix_refl arguments) h

end

end Command

end MeshConsole
