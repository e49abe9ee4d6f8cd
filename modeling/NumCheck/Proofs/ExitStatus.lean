import NumCheck.Proofs.JsonText
import NumCheck.Proofs.Leaves
import NumCheck.Proofs.Notices
import NumCheck.Proofs.Scoping

/-!
# The exit status of the command

The exit status says how far a source gets: 1 if it has no program, 2 if it has one in which a
variable is used without a visible `let`, and 0 otherwise. No option changes it. It is also the
highest code of the problems that are shown, since with the rules of the language a check finds
nothing but unbound variables, in both modes.

A run shows the notices on its source as text or as JSON. It comes to its end in any case: what is
accepted can also be listed.

Both forms are read from the outside. The text has to be that of the notices, and the JSON is what
`Json.read?` takes from the characters on the output. The log of a verbose run comes before the text
and is not looked into. Left out are runs that come to no source, because their arguments are wrong
or the file cannot be read as text.
-/

namespace NumCheck

/-! ### Unbound uses -/

/-- The use is one at which no `let` for its name is visible. -/
def Program.Unbound (p : Program) (u : Use) : Prop :=
  u ∈ p.uses ∧ ¬ ∃ path, p.Binds path u.name ∧ Visible path u.path

mutual
/-- From a use that is reported, the `let`s that have failed lead back to an unbound one. -/
theorem Program.Reported.exists_unbound {p : Program} : ∀ {u : Use}, p.Reported u →
    ∃ v, p.Unbound v
  | u, .intro hu hall => by
    by_cases hv : ∃ path, p.Binds path u.name ∧ Visible path u.path
    · obtain ⟨path, hb, hv⟩ := hv
      exact Program.Failed.exists_unbound (hall path hb hv)
    · exact ⟨u, hu, hv⟩
theorem Program.Failed.exists_unbound {p : Program} : ∀ {path : List Nat}, p.Failed path →
    ∃ v, p.Unbound v
  | _, .intro hu => Program.Reported.exists_unbound hu
end

theorem Program.Unbound.reported {p : Program} {u : Use} (h : p.Unbound u) : p.Reported u :=
  .intro h.1 fun path hb hv => absurd ⟨path, hb, hv⟩ h.2

/-- Some use is reported just if some use is unbound. -/
theorem Program.reported_eq_nil_iff {p : Program} : p.reported = [] ↔ ¬ ∃ u, p.Unbound u := by
  rw [Program.reported, Program.reportedIn, List.filter_eq_nil_iff]
  simp only [decide_eq_true_eq]
  constructor
  · rintro hnone ⟨u, hu⟩
    exact hnone u hu.1 hu.reported
  · intro hnone u _ hr
    exact hnone hr.exists_unbound

/-! ### Checks in both modes -/

theorem Expr.IsPlain.wellFormed {e : Expr} (h : e.IsPlain) : e.WellFormed := by
  induction e with
  | var | literal => trivial
  | prefixed op operand span ih => exact ih h.2
  | binary op lhs rhs span ihl ihr => exact ⟨ihl h.2.1, ihr h.2.2⟩
  | stray kind => exact h

mutual
theorem Stmt.IsPlain.wellFormed : ∀ {s : Stmt}, s.IsPlain → s.WellFormed
  | .expr .., h | .bind .., h | .print .., h => Expr.IsPlain.wellFormed h
  | .block .., h => Stmt.ArePlain.allWellFormed h
theorem Stmt.ArePlain.allWellFormed : ∀ {l : List Stmt}, Stmt.ArePlain l → Stmt.AllWellFormed l
  | [], _ => trivial
  | _ :: _, h => ⟨Stmt.IsPlain.wellFormed h.1, Stmt.ArePlain.allWellFormed h.2⟩
end

namespace Check

/-- With the rules of the language, both modes accept a plain program without unbound uses. Any
other they refuse, for variables only. -/
theorem Direct.check_verdict {p : Program} (h : Stmt.ArePlain p.statements) :
    ((¬ ∃ u, p.Unbound u) ∧ ∀ mode, ∃ typed, Direct.check .standard mode p = .ok (.ok typed)) ∨
    ((∃ u, p.Unbound u) ∧ ∀ mode, ∃ d, Direct.check .standard mode p = .ok (.error d) ∧
      d.leaves ≠ [] ∧ ∀ q ∈ d.leaves, q.code = 2) := by
  rcases Direct.check_compared .standard h.allWellFormed with
    ⟨typed, hf, ha⟩ | ⟨q, d, hf, ha, hbegins⟩
  · rcases Direct.check_tells h with ⟨typed', -, hnil, -⟩ | ⟨d, hd, -⟩
    · refine .inl ⟨Program.reported_eq_nil_iff.mp hnil, fun mode => ⟨typed, ?_⟩⟩
      cases mode with
      | failFast => exact hf
      | accumulate => exact ha
    · cases ha.symm.trans hd
  · rcases Direct.check_tells h with ⟨typed', ht, -⟩ | ⟨d', hd, hne, hleaves⟩
    · cases ha.symm.trans ht
    · cases ha.symm.trans hd
      have hcodes : ∀ r ∈ d.leaves, r.code = 2 := by
        rw [hleaves, List.forall_mem_map]
        exact fun u _ => rfl
      have hfirst : d.leaves.head? = some q := by
        rw [← hbegins.first, Diagnostic.leavesList, Diagnostic.leavesList, List.append_nil]
      refine .inr ⟨not_not.mp fun hnone => hne (Program.reported_eq_nil_iff.mpr hnone), ?_⟩
      intro mode
      cases mode with
      | failFast =>
        refine ⟨.one q, hf, List.cons_ne_nil _ _, List.forall_mem_singleton.mpr ?_⟩
        exact hcodes q (List.mem_of_mem_head? hfirst)
      | accumulate => exact ⟨d, ha, by simpa [hleaves] using hne, hcodes⟩

/-! ### Listings -/

section Listings

variable (rules : Rules) (mode : Mode)

theorem Direct.expr_listed (env : Direct.Env) {e : Expr} {t : Typed.Expr}
    (h : Direct.expr rules mode env e = .ok t) : ∃ text, t.listing = .ok text := by
  induction e generalizing t with
  | var name span =>
    rw [Direct.expr] at h
    split at h <;> cases h
    exact ⟨_, rfl⟩
  | literal value span =>
    cases h
    exact ⟨_, rfl⟩
  | prefixed op operand span ih =>
    rw [Direct.expr] at h
    split at h
    · cases h
    · split at h
      · cases h
      · rename_i hoperand
        split at h <;> cases h
        obtain ⟨text, htext⟩ := ih hoperand
        rw [Typed.Expr.listing, htext]
        exact ⟨_, rfl⟩
  | binary op lhs rhs span ihl ihr =>
    rw [Direct.expr] at h
    split at h
    · cases h
    · split at h
      · cases h
      · rename_i hboth
        split at h <;> cases h
        obtain ⟨hl, hr⟩ := Direct.both_eq_ok mode hboth
        obtain ⟨left, hleft⟩ := ihl hl
        obtain ⟨right, hright⟩ := ihr hr
        rw [Typed.Expr.listing, hleft, hright]
        exact ⟨_, rfl⟩
  | stray kind => cases h

mutual
theorem Direct.stmt_listed : ∀ (s : Stmt) {env : Direct.Env} {t : Typed.Stmt}
    {ds : List Diagnostic} (depth : Nat), Direct.stmt rules mode env s = .ok (t, ds) →
      ∃ lines, t.listing depth = .ok lines
  | .expr e span, env, t, ds, depth, h | .print e span, env, t, ds, depth, h
  | .bind name e span, env, t, ds, depth, h => by
    rw [Direct.stmt] at h
    obtain ⟨value, hvalue, heq⟩ := map_eq_ok h
    cases heq
    obtain ⟨text, htext⟩ := Direct.expr_listed rules mode env hvalue
    rw [Typed.Stmt.listing, htext]
    exact ⟨_, rfl⟩
  | .block body span, env, t, ds, depth, h => by
    rw [Direct.stmt] at h
    obtain ⟨⟨typed, es⟩, hbody, heq⟩ := map_eq_ok h
    cases heq
    obtain ⟨lines, hlines⟩ := Direct.statements_listed body (depth + 1) hbody
    rw [Typed.Stmt.listing, hlines]
    exact ⟨_, rfl⟩
  | .stray kind, env, t, ds, depth, h => by
    rw [Direct.stmt] at h
    cases h
/-- Statements with a diagnostic are left out, and the others are listed. -/
theorem Direct.statements_listed : ∀ (l : List Stmt) {env : Direct.Env} {ts : List Typed.Stmt}
    {ds : List Diagnostic} (depth : Nat), Direct.statements rules mode env l = .ok (ts, ds) →
      ∃ lines, Typed.Stmt.listingList depth ts = .ok lines
  | [], env, ts, ds, depth, h => by
    rw [Direct.statements] at h
    cases h
    exact ⟨[], by rw [Typed.Stmt.listingList]; rfl⟩
  | s :: rest, env, ts, ds, depth, h => by
    have ih := fun env ts ds => @Direct.statements_listed rest env ts ds depth
    rw [Direct.statements_cons] at h
    split at h
    · rename_i typed found hs
      obtain ⟨⟨more, es⟩, hrest, heq⟩ := map_eq_ok h
      cases heq
      obtain ⟨first, hfirst⟩ := Direct.stmt_listed s depth hs
      obtain ⟨lines, hlines⟩ := ih _ _ _ hrest
      rw [Typed.Stmt.listingList, hfirst, hlines]
      exact ⟨_, rfl⟩
    · split at h
      · obtain ⟨⟨more, es⟩, hrest, heq⟩ := map_eq_ok h
        cases heq
        exact ih _ _ _ hrest
      · cases h
end

/-- What a check accepts can be listed. -/
theorem Direct.check_listed {p : Program} {typed : Typed.Program}
    (h : Direct.check rules mode p = .ok (.ok typed)) : ∃ text, typed.listing = .ok text := by
  rw [Direct.check] at h
  split at h
  · rename_i hstatements
    split at h <;> cases h
    obtain ⟨lines, hlines⟩ := Direct.statements_listed rules mode _ 0 hstatements
    rw [Typed.Program.listing, Typed.listing, hlines]
    exact ⟨_, rfl⟩
  · cases h
  · cases h

end Listings

end Check

/-! ### Sources -/

namespace Command

open Check

/-- The mode that options ask for. -/
def Options.mode (o : Options) : Mode := if o.accumulate then .accumulate else .failFast

/-- The problems with a source, as a check in the given mode finds them. -/
def problems (mode : Mode) (source : String) : List Problem :=
  match Program.ofSource source with
  | .error q => [q]
  | .ok p =>
    match (check .standard mode p).result with
    | .ok (.error d) => d.leaves
    | _ => []

theorem problems_of_accepted {mode : Mode} {source : String} {p : Program} {typed : Typed.Program}
    (hsource : Program.ofSource source = .ok p)
    (h : (check .standard mode p).result = .ok (.ok typed)) : problems mode source = [] := by
  simp only [problems, hsource, h]

theorem problems_of_rejected {mode : Mode} {source : String} {p : Program} {d : Diagnostic}
    (hsource : Program.ofSource source = .ok p)
    (h : (check .standard mode p).result = .ok (.error d)) : problems mode source = d.leaves := by
  simp only [problems, hsource, h]

theorem problems_of_refused {source : String} {q : Problem} (mode : Mode)
    (h : Program.ofSource source = .error q) :
    problems mode source = (Diagnostic.one q).leaves := by
  simp only [problems, h, Diagnostic.leaves]

/-- The notices on a source, in order. -/
def notices (mode : Mode) (source : String) : List Notice :=
  (problems mode source).map (Problem.notice source)

/-- What makes up each exit status, for all modes together. -/
inductive Verdict (source : String) : Nat → Prop where
  /-- Nothing is wrong, and the typed program can be listed. -/
  | accepted {p : Program} : Program.ofSource source = .ok p → (¬ ∃ u, p.Unbound u) →
      (∀ mode, ∃ typed text, (check .standard mode p).result = .ok (.ok typed) ∧
        typed.listing = .ok text) → Verdict source 0
  /-- There is no program. -/
  | refused {q : Problem} : Program.ofSource source = .error q →
      (Diagnostic.one q).exitStatus = 1 → Verdict source 1
  /-- A variable is unbound. -/
  | unbound {p : Program} : Program.ofSource source = .ok p → (∃ u, p.Unbound u) →
      (∀ mode, ∃ d, (check .standard mode p).result = .ok (.error d) ∧ d.leaves ≠ [] ∧
        d.exitStatus = 2) → Verdict source 2

theorem parse_of_ofSource {source : String} {p : Program} (h : Program.ofSource source = .ok p) :
    Program.parse source = .ok p := by
  rw [Program.ofSource] at h
  split at h <;> cases h
  assumption

/-- A source without a program has a problem of code 0, if it is too deep, or 1. -/
theorem exitStatus_of_ofSource {source : String} {q : Problem}
    (h : Program.ofSource source = .error q) : (Diagnostic.one q).exitStatus = 1 := by
  rw [Program.ofSource] at h
  split at h
  · cases h
  · rename_i e _
    cases h
    cases e with
    | tooDeep => rfl
    | unexpected e => rcases e with ⟨_ | tok, expected⟩ <;> rfl

theorem exists_verdict (source : String) : ∃ status, Verdict source status := by
  cases hsource : Program.ofSource source with
  | error q => exact ⟨1, .refused hsource (exitStatus_of_ofSource hsource)⟩
  | ok p =>
    have hread := (Grammar.parse_eq_ok_iff.mp (parse_of_ofSource hsource)).1
    have hplain := (Grammar.listReads_of_read hread).arePlain
    rcases Direct.check_verdict hplain with ⟨hnone, hok⟩ | ⟨hsome, herror⟩
    · refine ⟨0, .accepted hsource hnone fun mode => ?_⟩
      obtain ⟨typed, htyped⟩ := hok mode
      obtain ⟨text, htext⟩ := Direct.check_listed .standard mode htyped
      exact ⟨typed, text, (check_eq_direct ..).trans htyped, htext⟩
    · refine ⟨2, .unbound hsource hsome fun mode => ?_⟩
      obtain ⟨d, hd, hne, hcodes⟩ := herror mode
      refine ⟨d, (check_eq_direct ..).trans hd, hne, ?_⟩
      have hmem := List.max?_mem (Diagnostic.max?_codes hne)
      obtain ⟨q, hq, hcode⟩ := List.mem_map.mp hmem
      rw [Diagnostic.exitStatus, ← hcode, hcodes q hq]
      rfl

/-- The problems that go with each status. -/
theorem Verdict.problems_cases {source : String} {status : Nat} (h : Verdict source status)
    (mode : Mode) : (status = 0 ∧ problems mode source = []) ∨
      ∃ d : Diagnostic, problems mode source = d.leaves ∧ d.leaves ≠ [] ∧
        d.exitStatus = status := by
  cases h with
  | accepted hsource _ hcheck =>
    obtain ⟨typed, text, htyped, -⟩ := hcheck mode
    exact .inl ⟨rfl, problems_of_accepted hsource htyped⟩
  | @refused q hsource hstatus =>
    exact .inr ⟨.one q, problems_of_refused mode hsource, List.cons_ne_nil _ _, hstatus⟩
  | unbound hsource _ hcheck =>
    obtain ⟨d, hd, hne, hstatus⟩ := hcheck mode
    exact .inr ⟨d, problems_of_rejected hsource hd, hne, hstatus⟩

/-- The status is told by the codes of the notices. -/
theorem Verdict.notices_codes {source : String} {status : Nat} (h : Verdict source status)
    (mode : Mode) : (notices mode source ≠ [] ↔ status ≠ 0) ∧
      (status ≠ 0 → ∃ highest, ((notices mode source).map Notice.code).max? = some highest ∧
        status = if highest = 0 then 1 else highest) := by
  have hcodes : (notices mode source).map Notice.code =
      (problems mode source).map Problem.code := by
    rw [notices, List.map_map]
    rfl
  rw [hcodes, notices, Ne, List.map_eq_nil_iff]
  rcases h.problems_cases mode with ⟨rfl, hnil⟩ | ⟨d, hleaves, hne, rfl⟩
  · simp [hnil]
  · have hstatus := d.exitStatus_ne_zero
    rw [hleaves]
    exact ⟨iff_of_true hne hstatus, fun _ => ⟨d.code, Diagnostic.max?_codes hne, rfl⟩⟩

/-! ### Outputs -/

/-- The status and the notices that the JSON object on the output tells. -/
def readResult? (output : String) : Option (Nat × List Notice) := do
  let result ← Json.read? output
  let exit ← (← result.field? "exit_code").nat?
  let notices ← (← (← result.field? "diagnostics").items?).mapM Notice.ofJson?
  return (exit, notices)

/-- The output tells the status and the notices in the way that the options ask for. -/
structure Answers (o : Options) (path source : String) (status : Nat) (out : Output) : Prop where
  /-- The status is that of the command. -/
  exit : out.exit = status
  /-- As JSON, the status and all notices can be read from the output. -/
  json : o.json = true → readResult? out.stdout = some (status, notices o.mode source)
  /-- As JSON, the output is one line of printable characters. -/
  line : o.json = true → ∃ text, Json.PrintableAscii text ∧ out.stdout = text ++ "\n"
  /-- As text, all notices are on the error stream. Only a log comes before them. -/
  text : ∃ log, out.stderr = log ++ (if o.json then "" else
    String.join ((notices o.mode source).map (Notice.text path))) ∧ (o.verbose = false → log = "")
  /-- As text, the typed program is listed on the output, if this is asked for and there is one. -/
  listing : o.json = false → o.dumpTyped = true → status = 0 → ∃ p typed lines,
    Program.ofSource source = .ok p ∧ (check .standard o.mode p).result = .ok (.ok typed) ∧
      typed.listing = .ok lines ∧ out.stdout = lines ++ "\n"
  /-- Otherwise the output is empty. -/
  silent : o.json = false → o.dumpTyped = false ∨ status ≠ 0 → out.stdout = ""

/-- From the text of a result, its status and its notices can be read back. -/
theorem readResult?_resultJson (exit : Nat) (phase source path : String) (ps : List Problem) :
    readResult? (resultJson exit (ps.map fun q => q.report.toJson q.code phase source path)) =
      some (exit, ps.map (Problem.notice source)) := by
  have hitems := mapM_map_some (fun q => Problem.notice_report q phase source path) ps
  rw [readResult?, resultJson, Json.read?_render _ (by simp [Json.isBlank])]
  change (List.mapM Notice.ofJson? _).bind (fun notices => some (exit, notices)) = _
  rw [hitems]
  rfl

/-- An output as JSON. -/
theorem answers_json {o : Options} {source : String} {ps : List Problem} (hj : o.json = true)
    (status : Nat) (path phase : String) (h : problems o.mode source = ps) :
    Answers o path source status
      { exit := status
        stdout := resultJson status (ps.map fun q => q.report.toJson q.code phase source path) } where
  exit := rfl
  json _ := by
    rw [notices, h]
    exact readResult?_resultJson status phase source path ps
  line _ := ⟨_, Json.printableAscii_render _, rfl⟩
  text := ⟨"", by simp [hj], fun _ => rfl⟩
  listing hf := Bool.noConfusion (hj.symm.trans hf)
  silent hf := Bool.noConfusion (hj.symm.trans hf)

/-- An output as text, where the typed program is listed or not. -/
theorem answers_text {o : Options} {path source stdout stderr : String} {status : Nat}
    (hj : o.json = false)
    (hstderr : stderr = String.join ((notices o.mode source).map (Notice.text path)))
    (hlisting : o.dumpTyped = true → status = 0 → ∃ p typed lines,
      Program.ofSource source = .ok p ∧ (check .standard o.mode p).result = .ok (.ok typed) ∧
        typed.listing = .ok lines ∧ stdout = lines ++ "\n")
    (hsilent : o.dumpTyped = false ∨ status ≠ 0 → stdout = "") :
    Answers o path source status { exit := status, stdout := stdout, stderr := stderr } where
  exit := rfl
  json ht := Bool.noConfusion (hj.symm.trans ht)
  line ht := Bool.noConfusion (hj.symm.trans ht)
  text := ⟨"", by simp [hj, hstderr], fun _ => rfl⟩
  listing _ := hlisting
  silent _ := hsilent

/-- Logged lines come first. -/
theorem Answers.logged {o : Options} {path source : String} {status : Nat} {out : Output}
    (h : Answers o path source status out) (log : String) :
    Answers o path source status
      (if o.verbose then { out with stderr := log ++ out.stderr } else out) := by
  split
  · rename_i hverbose
    obtain ⟨rest, hrest, -⟩ := h.text
    refine ⟨h.exit, h.json, h.line, ⟨log ++ rest, ?_, ?_⟩, h.listing, h.silent⟩
    · rw [hrest, String.append_assoc]
    · intro hquiet
      exact Bool.noConfusion (hverbose.symm.trans hquiet)
  · exact h

theorem rejected_answers {o : Options} {source : String} {d : Diagnostic} (path phase : String)
    (h : problems o.mode source = d.leaves) :
    Answers o path source d.exitStatus (rejected o path source phase d) := by
  cases hj : o.json with
  | true =>
    rw [rejected, if_pos hj]
    exact answers_json hj d.exitStatus path phase h
  | false =>
    have htext : d.leaves.map (fun q => q.report.render q.code source path ++ "\n") =
        (notices o.mode source).map (Notice.text path) := by
      rw [notices, h, List.map_map]
      exact List.map_congr_left fun q _ => q.render_report source path
    rw [rejected, if_neg (by simp [hj]), htext]
    exact answers_text hj rfl (fun _ hzero => absurd hzero d.exitStatus_ne_zero) fun _ => rfl

theorem accepted_answers {o : Options} {source : String} {p : Program} {typed : Typed.Program}
    {lines : String} (path : String) (hsource : Program.ofSource source = .ok p)
    (hcheck : (check .standard o.mode p).result = .ok (.ok typed))
    (hlines : typed.listing = .ok lines) : Answers o path source 0 (accepted o typed) := by
  have hnone := problems_of_accepted hsource hcheck
  cases hj : o.json with
  | true =>
    have hanswers := answers_json hj 0 path "" hnone
    rw [List.map_nil] at hanswers
    rw [accepted, if_pos hj]
    exact hanswers
  | false =>
    have hempty : "" = String.join ((notices o.mode source).map (Notice.text path)) := by
      rw [notices, hnone]
      rfl
    rw [accepted, if_neg (by simp [hj]), hlines]
    cases hd : o.dumpTyped with
    | true =>
      rw [if_pos rfl]
      refine answers_text hj hempty ?_ (by simp [hd])
      exact fun _ _ => ⟨p, typed, lines, hsource, hcheck, hlines, rfl⟩
    | false =>
      rw [if_neg Bool.false_ne_true]
      refine answers_text hj hempty ?_ fun _ => rfl
      exact fun ht => Bool.noConfusion (hd.symm.trans ht)

/-- What the command gives for a source. -/
theorem checkSource_answers {source : String} {status : Nat} (h : Verdict source status)
    (origin : String) (o : Options) (path : String) :
    Answers o path source status (checkSource origin o path source) := by
  rw [checkSource]
  cases h with
  | @refused q hsource hstatus =>
    have hanswers := rejected_answers path "parser" (problems_of_refused o.mode hsource)
    rw [hstatus] at hanswers
    rw [hsource]
    exact hanswers
  | @unbound p hsource _ hcheck =>
    obtain ⟨d, hd, hne, hstatus⟩ := hcheck o.mode
    have hanswers := rejected_answers path "typecheck" (problems_of_rejected hsource hd)
    rw [hstatus] at hanswers
    rw [hsource]
    dsimp only
    rw [← Options.mode, hd]
    exact hanswers.logged _
  | @accepted p hsource _ hcheck =>
    obtain ⟨typed, lines, htyped, hlines⟩ := hcheck o.mode
    have hanswers := accepted_answers path hsource htyped hlines
    rw [hsource]
    dsimp only
    rw [← Options.mode, htyped]
    exact hanswers.logged _

/-! ### Runs -/

/-- The arguments ask for a check with options, and at its path there is the source to be read. -/
def Asks (arguments : List String) (read : Path → Except ReadError ByteArray) (o : Options)
    (path : Path) (source : String) : Prop :=
  ∃ name bytes, Invocation.ofArguments arguments = .check name o ∧ '\x00' ∉ name.toList ∧
    path = Path.ofString name ∧ read path = .ok bytes ∧ Text.ofBytes? bytes = some source

theorem Asks.run {arguments : List String} {read : Path → Except ReadError ByteArray} {o : Options}
    {path : Path} {source : String} (h : Asks arguments read o path source) (origin : String) :
    run origin arguments read = .ok (checkSource origin o path.render source) := by
  obtain ⟨name, bytes, hcheck, hname, rfl, hread, hsource⟩ := h
  have hnul : name.toList.contains '\x00' = false := by simpa using hname
  rw [Command.run, hcheck]
  simp only [hnul, checkFile, hread, hsource]
  rfl

theorem ofText_long (f : Flag) : Argument.ofText f.long = .ok (.flags [f]) := by
  cases f <;> rfl

theorem ofText_of_head? {name : String} (h : name.toList.head? ≠ some '-') :
    Argument.ofText name = .ok (.positional name) := by
  rw [Argument.ofText]
  split
  · rename_i heq
    exact absurd (by rw [heq]; rfl) h
  · rename_i heq
    exact absurd (by rw [heq]; rfl) h
  · rfl

/-- Flags before a source. -/
theorem ofTexts_flags {name : String} (h : name.toList.head? ≠ some '-') (fs : List Flag) :
    Argument.ofTexts (fs.map Flag.long ++ [name]) =
      .ok (fs.map (fun f => .flags [f]) ++ [.positional name]) := by
  induction fs with
  | nil =>
    have hname : name ≠ "--" := by
      rintro rfl
      exact h rfl
    rw [List.map_nil, List.nil_append, Argument.ofTexts, if_neg hname, ofText_of_head? h]
    rfl
  | cons f fs ih =>
    have hlong : f.long ≠ "--" := by cases f <;> decide
    rw [List.map_cons, List.cons_append, Argument.ofTexts, if_neg hlong, ofText_long, ih]
    rfl

theorem read_flags (name : String) {fs : List Flag} (h : .help ∉ fs) (o : Options) :
    Invocation.read { options := o } (fs.map (fun f => .flags [f]) ++ [.positional name]) =
      .check name (fs.foldl Options.set o) := by
  induction fs generalizing o with
  | nil => rfl
  | cons f fs ih =>
    rw [List.mem_cons, not_or] at h
    obtain ⟨hf, hfs⟩ := h
    rw [List.map_cons, List.cons_append, Invocation.read, if_neg (by simpa using hf)]
    exact ih hfs (o.set f)

/-- Flags in any order set the options. -/
theorem ofArguments_flags {name : String} (h : name.toList.head? ≠ some '-') (fs : List Flag)
    (hfs : .help ∉ fs) :
    Invocation.ofArguments (fs.map Flag.long ++ [name]) =
      .check name (fs.foldl Options.set {}) := by
  rw [Invocation.ofArguments, ofTexts_flags h]
  exact read_flags name hfs {}

/-- **The exit status is exact, and text and JSON say the same.** For each source there is a status
that tells whether it is accepted, has no program or has an unbound variable, and which is also the
highest code of the notices on it, or 1 if this is 0. Whatever the options, a run that comes to the
source ends with this status and shows these notices; only `--accumulate` changes which they are. As
JSON, the status and the notices are what can be read from the output. -/
theorem run_exitStatus (source : String) :
    ∃ status ≤ 2,
      (∀ mode, status = 0 ↔ ∃ p typed, Program.ofSource source = .ok p ∧
        (check .standard mode p).result = .ok (.ok typed)) ∧
      (status = 1 ↔ ∃ q, Program.ofSource source = .error q) ∧
      (status = 2 ↔ ∃ p u, Program.ofSource source = .ok p ∧ p.Unbound u) ∧
      (∀ mode, (notices mode source ≠ [] ↔ status ≠ 0) ∧
        (status ≠ 0 → ∃ highest, ((notices mode source).map Notice.code).max? = some highest ∧
          status = if highest = 0 then 1 else highest)) ∧
      ∀ origin arguments read o path, Asks arguments read o path source →
        ∃ out, run origin arguments read = .ok out ∧ Answers o path.render source status out := by
  obtain ⟨status, hverdict⟩ := exists_verdict source
  refine ⟨status, ?_, fun mode => ?_, ?_, ?_, hverdict.notices_codes, ?_⟩
  · cases hverdict <;> decide
  · cases hverdict with
    | accepted hsource _ hcheck =>
      obtain ⟨typed, -, htyped, -⟩ := hcheck mode
      exact iff_of_true rfl ⟨_, typed, hsource, htyped⟩
    | refused hsource => simp [hsource]
    | unbound hsource _ hcheck =>
      obtain ⟨d, hd, -⟩ := hcheck mode
      simp [hsource, hd]
  · cases hverdict with
    | accepted hsource => simp [hsource]
    | refused hsource => simp [hsource]
    | unbound hsource => simp [hsource]
  · cases hverdict with
    | accepted hsource hnone => simpa [hsource] using hnone
    | refused hsource => simp [hsource]
    | unbound hsource hsome => simpa [hsource] using hsome
  · intro origin arguments read o path hasks
    exact ⟨_, hasks.run origin, checkSource_answers hverdict origin o path.render⟩

/-- Two unbound variables, both shown as JSON. -/
theorem run_exitStatus_accumulate :
    let source := "let x = x;\nprint x;"
    let o : Options := { json := true, accumulate := true }
    let arguments := ["--accumulate", "--json", "two.num"]
    let read : Path → Except ReadError ByteArray := fun _ => .ok source.toUTF8
    let path := Path.ofString "two.num"
    let notice (line column : Nat) : Notice :=
      ⟨2, "Undefined variable 'x'", [⟨"not found in this scope", ⟨line, column⟩⟩], []⟩
    Asks arguments read o path source ∧ ∃ out, run "numc" arguments read = .ok out ∧
      out.exit = 2 ∧ readResult? out.stdout = some (2, [notice 1 9, notice 2 7]) := by
  intro source o arguments read path notice
  have hutf8 : String.fromUTF8? source.toUTF8 = some source := dif_pos source.isValidUTF8
  have hbytes : Text.ofBytes? source.toUTF8 = some source := by
    rw [Text.ofBytes?, hutf8]
    decide
  have hasks : Asks arguments read o path source :=
    ⟨"two.num", source.toUTF8, ofArguments_flags (by decide) [.accumulate, .json] (by decide),
      by decide, rfl, rfl, hbytes⟩
  let p : Program := ⟨[.bind ⟨"x", ⟨4, 5⟩⟩ (.var ⟨"x", ⟨8, 9⟩⟩ ⟨8, 9⟩) ⟨0, 10⟩,
    .print (.var ⟨"x", ⟨17, 18⟩⟩ ⟨17, 18⟩) ⟨11, 19⟩], ⟨0, 19⟩⟩
  have hsource : Program.ofSource source = .ok p := by
    have hparse : Program.parse source = .ok p := by
      refine Grammar.parse_eq_ok_iff.mpr ⟨?_, by decide⟩
      subst source p
      rfl
    rw [Program.ofSource, hparse]
  have hcheck : (check .standard .accumulate p).result = .ok (.error (.many
      [.one (.undefinedVariable "x" ⟨8, 9⟩), .one (.undefinedVariable "x" ⟨17, 18⟩)])) := by
    rw [check_eq_direct]
    rfl
  have hnotices : notices o.mode source = [notice 1 9, notice 2 7] := by
    rw [notices, show o.mode = .accumulate from rfl, problems_of_rejected hsource hcheck]
    decide
  obtain ⟨status, hle, hzero, hone, -, -, hrun⟩ := run_exitStatus source
  have hstatus : status = 2 := by
    have hne0 : status ≠ 0 := by
      rw [Ne, hzero .accumulate, hsource]
      rintro ⟨p', typed, hp, ht⟩
      cases hp
      cases hcheck.symm.trans ht
    have hne1 : status ≠ 1 := by
      rw [Ne, hone, hsource]
      rintro ⟨q, hq⟩
      cases hq
    omega
  obtain ⟨out, hout, hanswers⟩ := hrun "numc" arguments read o path hasks
  have hresult := hanswers.json rfl
  rw [hstatus, hnotices] at hresult
  exact ⟨hasks, out, hout, hanswers.exit.trans hstatus, hresult⟩

end Command

end NumCheck
