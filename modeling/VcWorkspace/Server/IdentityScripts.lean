import VcWorkspace.Server.IdentityProfile

/-! # Literals in generated scripts

The planner puts values of profiles and requests between the single quotes of sh
and PowerShell scripts. The scripts are templates with the values for holes: if no
value ends the literal it stands in, the script has the tokens of its template,
whatever the values are. The credentials of a request are never in the command.
-/

namespace VcWorkspace.Server.IdentityProfile

open Store Transition Text List

section Shells

variable {shell : Shell}

inductive Shell
  | sh
  | powershell
  deriving DecidableEq, Repr

inductive ScriptMode
  | code
  | escape
  | single
  | double
  | doubleEscape
  deriving DecidableEq, Repr

/-- The characters that end a single-quoted literal. PowerShell also takes the typographic quotes
U+2018 to U+201B. -/
def Shell.quotes : Shell → List Char
  | .sh => ['\'']
  | .powershell => ['\'', '‘', '’', '‚', '‛']

def Shell.escapes : Shell → Char
  | .sh => '\\'
  | .powershell => '\x60'

def Shell.lexer (shell : Shell) : Lexer Char where
  Mode := ScriptMode
  start := .code
  next
    | .code, c =>
      if c ∈ shell.quotes then .single
      else if c = '"' then .double
      else if c = shell.escapes then .escape
      else .code
    | .escape, _ => .code
    | .single, c => if c ∈ shell.quotes then .code else .single
    | .double, c =>
      if c = '"' then .code
      else if c = shell.escapes then .doubleEscape
      else .double
    | .doubleEscape, _ => .double
  cut
    | .code, c => c ∈ shell.quotes
    | .single, c => c ∈ shell.quotes
    | _, _ => false
  literal q := q == .single

def Shell.quotesHoles (shell : Shell) (t : Template) : Bool :=
  shell.lexer.holesIn shell.lexer.literal shell.lexer.start t

/-- A script that reads like its template, with every value in one literal. -/
structure Quoted (shell : Shell) (template : Template) (values : List String) (script : String) :
    Prop where
  filled : script.toList = fill (arguments values) template
  literals : shell.quotesHoles template = true
  tokens : shell.lexer.tokens shell.lexer.start script.toList =
    (shell.lexer.onTemplates.tokens shell.lexer.start template).map (Token.fill (arguments values))

theorem quoted_of_values {template : Template} {values : List String} {script : String}
    (hscript : script.toList = fill (arguments values) template)
    (hliterals : shell.quotesHoles template = true)
    (hvalues : ∀ v ∈ values, ∀ c ∈ v.toList, c ∉ shell.quotes) :
    Quoted shell template values script := by
  refine ⟨hscript, hliterals, hscript ▸ Lexer.tokens_fill hliterals fun i q hq => ?_⟩
  obtain rfl := eq_of_beq (α := ScriptMode) hq
  intro c hc
  simp [Shell.lexer, forall_mem_arguments hvalues i c hc]

/-- The values in the literals of such a script have no quotes. -/
theorem Quoted.literal {template : Template} {values : List String} {script : String}
    (h : Quoted shell template values script) {t : Token Piece} (hl : t.literal = true)
    (ht : t ∈ shell.lexer.onTemplates.tokens shell.lexer.start template) :
    ∀ c ∈ fill (arguments values) t.text, c ∉ shell.quotes := by
  have hread : ∀ q c, shell.lexer.cut q c = false →
      shell.lexer.literal (shell.lexer.next q c) = true →
      shell.lexer.literal q = true ∧ c ∉ shell.quotes := by
    intro q c hcut hnext
    change ScriptMode at q
    cases q <;> simp only [Shell.lexer] at hcut hnext ⊢ <;> (repeat' split at hnext) <;> simp_all
  have htoken : t.fill (arguments values) ∈ shell.lexer.tokens shell.lexer.start script.toList :=
    h.tokens ▸ mem_map_of_mem ht
  exact (Lexer.literal_of_mem_tokens hread).1 _ htoken hl

end Shells

section Templates

/-- The literal that a script prints and decodes into the file: the last one. -/
def piped {κ : Type} [DecidableEq κ] (char : Char → κ) (tokens : List (Token κ)) :
    Option (List κ) :=
  match tokens.reverse with
  | after :: text :: blank :: fmt :: before :: _ =>
    if before.literal = false ∧ "\nprintf ".toList.map char <:+ before.text ∧
        fmt = ⟨true, "%s".toList.map char⟩ ∧ blank = ⟨false, " ".toList.map char⟩ ∧
        text.literal = true ∧ after.literal = false ∧
        " | base64 -d >/etc/sssd/sssd.conf\n".toList.map char <+: after.text then
      some text.text
    else none
  | _ => none

/-- The template of `linuxInstall`, with a hole for the encoded file. -/
def installTemplate (before : Template) (i : ℕ) : Template :=
  verbatim installPrefix ++ before ++ verbatim installMiddle ++ [.hole i] ++ verbatim installSuffix

namespace Mode

def shell : Mode → OsFamily → Shell
  | .managedLocal, .windows | .windowsAd, _ | .windowsEntra, _ => .powershell
  | _, _ => .sh

def interpreter : Mode → OsFamily → List String
  | .managedLocal, .windows =>
    [powershell, "-NoLogo", "-NoProfile", "-NonInteractive", "-Command"]
  | .windowsAd, _ | .windowsEntra, _ =>
    [powershell, "-NoLogo", "-NoProfile", "-NonInteractive", "-ExecutionPolicy", "Bypass",
      "-Command"]
  | _, _ => ["/bin/sh", "-c"]

def template : Mode → OsFamily → Template
  | .managedLocal, .linux => verbatim managedLinux
  | .managedLocal, .windows => verbatim managedWindows
  | .linuxSssdAd, _ => installTemplate (format joinAd) 3
  | .linuxSssdFreeipa, _ => format freeipaScript
  | .linuxSssdLdap, _ => installTemplate (verbatim checkCapabilities) 0
  | .linuxSssdOidc, _ => verbatim oidcScript
  | .windowsAd, _ => format windowsAdScript
  | .windowsEntra, _ => format entraScript

set_option maxRecDepth 20000

theorem template_linuxSssdAd (platform : OsFamily) :
    Shell.sh.quotesHoles (linuxSssdAd.template platform) = true ∧
      piped Piece.char (Shell.sh.lexer.onTemplates.tokens ScriptMode.code
        (linuxSssdAd.template platform)) = some [.hole 3] := by
  rw [template, installTemplate, verbatim_eq (s := installPrefix) (toList_eq rfl),
    verbatim_eq (s := installMiddle) (toList_eq rfl),
    verbatim_eq (s := installSuffix) (toList_join_eq (by repeat' constructor)),
    format_eq (s := joinAd) (toList_join_eq (by repeat' constructor))]
  decide +kernel

theorem template_linuxSssdLdap (platform : OsFamily) :
    Shell.sh.quotesHoles (linuxSssdLdap.template platform) = true ∧
      piped Piece.char (Shell.sh.lexer.onTemplates.tokens ScriptMode.code
        (linuxSssdLdap.template platform)) = some [.hole 0] := by
  rw [template, installTemplate, verbatim_eq (s := installPrefix) (toList_eq rfl),
    verbatim_eq (s := installMiddle) (toList_eq rfl),
    verbatim_eq (s := installSuffix) (toList_join_eq (by repeat' constructor)),
    verbatim_eq (s := checkCapabilities) (toList_eq rfl)]
  decide +kernel

/-- The allowed group is a literal of its own. -/
theorem template_windowsAd (platform : OsFamily) :
    Shell.powershell.quotesHoles (windowsAd.template platform) = true ∧
      ⟨true, [.hole 4]⟩ ∈ Shell.powershell.lexer.onTemplates.tokens ScriptMode.code
        (windowsAd.template platform) := by
  rw [template, format_eq (s := windowsAdScript) (toList_join_eq (by repeat' constructor))]
  decide +kernel

theorem quotesHoles_template (mode : Mode) (platform : OsFamily) :
    (mode.shell platform).quotesHoles (mode.template platform) = true := by
  cases mode with
  | managedLocal =>
    cases platform with
    | linux =>
      rw [template, verbatim_eq (s := managedLinux) (toList_join_eq (by repeat' constructor))]
      decide +kernel
    | windows =>
      rw [template, verbatim_eq (s := managedWindows) (toList_join_eq (by repeat' constructor))]
      decide +kernel
  | linuxSssdAd => exact (template_linuxSssdAd platform).1
  | linuxSssdFreeipa =>
    change Shell.sh.quotesHoles _ = true
    rw [template, format_eq (s := freeipaScript) (toList_join_eq (by repeat' constructor))]
    decide +kernel
  | linuxSssdLdap => exact (template_linuxSssdLdap platform).1
  | linuxSssdOidc =>
    change Shell.sh.quotesHoles _ = true
    rw [template, verbatim_eq (s := oidcScript) (toList_join_eq (by repeat' constructor))]
    decide +kernel
  | windowsAd => exact (template_windowsAd platform).1
  | windowsEntra =>
    change Shell.powershell.quotesHoles _ = true
    rw [template, format_eq (s := entraScript) (toList_join_eq (by repeat' constructor))]
    decide +kernel

end Mode

end Templates

section Values

def plainChars : List Char := alphanumeric ++ [' ', '.', '_', '@', '\\', ',', '-']

def Plain (s : String) : Prop := ∀ c ∈ s.toList, c ∈ plainChars

theorem quotes_of_plainChars (shell : Shell) : ∀ c ∈ plainChars, c ∉ shell.quotes := by
  cases shell <;> exact forall_mem_of_all (by decide)

theorem upperRune_of_plainChars : ∀ c ∈ plainChars, upperRune c ∈ plainChars :=
  forall_mem_of_all (by decide)

theorem quotes_of_alphabet : ∀ c ∈ Base64.alphabet, c ∉ Shell.sh.quotes :=
  forall_mem_of_all (by decide)

variable {s : String} {cs : List Char}

theorem Plain.quotes (h : Plain s) (shell : Shell) : ∀ c ∈ s.toList, c ∉ shell.quotes :=
  fun c hc => quotes_of_plainChars shell c (h c hc)

theorem Plain.toUpper (h : Plain s) : Plain (toUpper s) := by
  intro c hc
  rw [IdentityProfile.toUpper, String.toList_ofList] at hc
  obtain ⟨d, hd, rfl⟩ := mem_map.mp hc
  exact upperRune_of_plainChars d (h d hd)

theorem plain_of_head {c : Char} {others : List Char} (hs : s.toList = c :: cs)
    (hc : c ∈ alphanumeric) (hcs : ∀ d ∈ cs, d ∈ alphanumeric ++ others)
    (hothers : others ⊆ [' ', '.', '_', '@', '\\', ',', '-']) : Plain s := by
  intro d hd
  rw [hs] at hd
  rcases mem_cons.mp hd with rfl | hd
  · exact mem_append_left _ hc
  · rcases mem_append.mp (hcs d hd) with hd | hd
    · exact mem_append_left _ hd
    · exact mem_append_right _ (hothers hd)

theorem plain_of_name (h : directoryNamePattern s = true) : Plain s := by
  unfold directoryNamePattern at h
  split at h
  · cases h
  next c cs hs =>
    simp only [Bool.and_eq_true, decide_eq_true_eq, all_eq_true] at h
    exact plain_of_head hs h.1.1 h.2 (by decide)

theorem plain_of_principal (h : directoryPrincipalPattern s = true) : Plain s := by
  unfold directoryPrincipalPattern at h
  split at h
  · cases h
  next c cs hs =>
    simp only [Bool.and_eq_true, decide_eq_true_eq, all_eq_true] at h
    exact plain_of_head hs h.1.1 h.2 (by decide)

theorem plain_of_hexGroups {ns : List ℕ} (h : hexGroups ns cs = true) :
    ∀ c ∈ cs, c ∈ plainChars := by
  have hhex : ∀ c ∈ hexadecimal, c ∈ plainChars := forall_mem_of_all (by decide)
  induction ns generalizing cs with
  | nil => cases h
  | cons n ns ih =>
    cases ns with
    | nil =>
      simp only [hexGroups, Bool.and_eq_true, all_eq_true, decide_eq_true_eq] at h
      exact fun c hc => hhex c (h.2 c hc)
    | cons m ns =>
      simp only [hexGroups, Bool.and_eq_true, all_eq_true, decide_eq_true_eq] at h
      intro c hc
      rw [← take_append_drop n cs] at hc
      rcases mem_append.mp hc with hc | hc
      · exact hhex c (h.1.2 c hc)
      · have hrest := h.2
        split at hrest
        next rest hdrop =>
          rw [hdrop] at hc
          rcases mem_cons.mp hc with rfl | hc
          · decide
          · exact ih hrest c hc
        · cases hrest

end Values

section Safety

variable {parseURL : String → Option URL} {p : Profile} {r : ReconcileRequest}
  {plan : GuestIdentityReconcilePlan}

theorem base64_quotes (s : String) : ∀ c ∈ (base64 s).toList, c ∉ Shell.sh.quotes := by
  intro c hc
  rw [base64, String.toList_ofList] at hc
  exact quotes_of_alphabet c (Base64.mem_alphabet_of_mem_encode hc)

/-- The script of `linuxInstall` fills its template. -/
theorem filled_install (contents : String) {before : String} {t : Template} (args : List String)
    (hbefore : before.toList = fill (arguments args) t) (hholes : ∀ i ∈ holes t, i < args.length) :
    (installPrefix ++ before ++ installMiddle ++ base64 contents ++ installSuffix).toList =
      fill (arguments (args ++ [base64 contents])) (installTemplate t args.length) := by
  have hlast : arguments (args ++ [base64 contents]) args.length = (base64 contents).toList := by
    simp [arguments]
  simp only [installTemplate, fill_append, fill_verbatim, fill_arguments_append hholes,
    String.toList_append, hbefore]
  simp [fill, Piece.fill, hlast]

set_option maxRecDepth 20000 in
theorem holes_joinAd : ∀ i ∈ holes (format joinAd), i < 3 := by
  rw [format_eq (s := joinAd) (toList_join_eq (by repeat' constructor))]
  decide +kernel

def values (parseURL : String → Option URL) (p : Profile) (r : ReconcileRequest) : List String :=
  match p.mode with
  | .linuxSssdAd | .linuxSssdLdap => scriptArguments p r ++ [base64 (sssdFile parseURL p r)]
  | _ => scriptArguments p r

theorem command_planned (parseURL : String → Option URL) (p : Profile) (r : ReconcileRequest) :
    ∃ script : String, (planned parseURL p r).command = p.mode.interpreter p.platform ++ [script] ∧
      script.toList = fill (arguments (values parseURL p r)) (p.mode.template p.platform) := by
  obtain ⟨_, platform, mode, _, config⟩ := p
  cases mode with
  | managedLocal =>
    cases platform with
    | linux => exact ⟨managedLinux, rfl, fill_verbatim.symm⟩
    | windows => exact ⟨managedWindows, rfl, fill_verbatim.symm⟩
  | linuxSssdAd => exact ⟨_, rfl, filled_install _ _ toList_sprintf holes_joinAd⟩
  | linuxSssdFreeipa | windowsAd | windowsEntra => exact ⟨_, rfl, toList_sprintf⟩
  | linuxSssdLdap =>
    exact ⟨_, rfl, filled_install _ [] fill_verbatim.symm (by simp [holes, verbatim])⟩
  | linuxSssdOidc => exact ⟨oidcScript, rfl, fill_verbatim.symm⟩

theorem quotes_of_group {s : String} (hany : ¬containsAny s ['\r', '\n', '\'', ';'] = true)
    (hquotes : ∀ c ∈ s.toList, c ∉ ['‘', '’', '‚', '‛']) :
    ∀ c ∈ s.toList, c ∉ Shell.powershell.quotes := by
  intro c hc hquote
  rcases mem_cons.mp hquote with rfl | hquote
  · exact hany (any_eq_true.mpr ⟨_, hc, by decide⟩)
  · exact hquotes c hc hquote

theorem quotes_of_values (h : Ready parseURL p r)
    (hgroup : p.mode = .windowsAd → ∀ c ∈ (configString p.config "allowed_group").toList,
      c ∉ ['‘', '’', '‚', '‛']) :
    ∀ v ∈ values parseURL p r, ∀ c ∈ v.toList, c ∉ (p.mode.shell p.platform).quotes := by
  obtain ⟨_, platform, mode, _, config⟩ := p
  cases mode with
  | managedLocal | linuxSssdOidc => exact forall_mem_nil _
  | linuxSssdAd =>
    obtain ⟨⟨hdomain, -, huser, -⟩, -⟩ := h
    simp only [values, scriptArguments, cons_append, nil_append, forall_mem_cons]
    exact ⟨(plain_of_name hdomain).quotes _, (plain_of_principal huser).quotes _,
      (plain_of_name hdomain).quotes _, base64_quotes _, forall_mem_nil _⟩
  | linuxSssdFreeipa =>
    obtain ⟨hdomain, hserver, hrealm, huser, -⟩ := h
    simp only [values, scriptArguments, forall_mem_cons]
    exact ⟨(plain_of_principal huser).quotes _, (plain_of_name hdomain).quotes _,
      (plain_of_name hrealm).toUpper.quotes _, (plain_of_name hserver).quotes _,
      (plain_of_principal huser).quotes _, forall_mem_nil _⟩
  | linuxSssdLdap =>
    simp only [values, scriptArguments, nil_append, forall_mem_cons]
    exact ⟨base64_quotes _, forall_mem_nil _⟩
  | windowsAd =>
    obtain ⟨-, hdomain, huser, -, -, hany⟩ := h
    simp only [values, scriptArguments, forall_mem_cons]
    exact ⟨(plain_of_principal huser).quotes _, (plain_of_name hdomain).quotes _,
      forall_mem_of_all rfl, (plain_of_name hdomain).quotes _,
      quotes_of_group hany (hgroup rfl), forall_mem_nil _⟩
  | windowsEntra =>
    obtain ⟨hprincipal, hhost, htenant⟩ := h
    simp only [values, scriptArguments, forall_mem_cons]
    exact ⟨Plain.quotes (plain_of_hexGroups htenant) _, (plain_of_name hhost).quotes _,
      (plain_of_principal hprincipal).quotes _, forall_mem_nil _⟩

theorem quotes_of_quoted {script : String} (hmode : p.mode = .windowsAd)
    (h : Quoted (p.mode.shell p.platform) (p.mode.template p.platform) (values parseURL p r)
      script) :
    ∀ c ∈ (configString p.config "allowed_group").toList, c ∉ Shell.powershell.quotes := by
  obtain ⟨_, platform, mode, _, config⟩ := p
  obtain rfl := hmode
  have hgroup := h.literal rfl (Mode.template_windowsAd platform).2
  change ∀ c ∈ _, c ∉ (Mode.windowsAd.shell platform).quotes
  simpa [fill, Piece.fill, arguments, values, scriptArguments] using hgroup

theorem command_congr {r' : ReconcileRequest} (h : r'.joinUsername = r.joinUsername) :
    (planned parseURL p r').command = (planned parseURL p r).command := by
  obtain ⟨_, platform, mode, _, config⟩ := p
  cases mode with
  | managedLocal => cases platform <;> rfl
  | linuxSssdAd => simp only [planned, scriptArguments, sssdFile, sssdArguments, h]
  | linuxSssdFreeipa | windowsAd => simp only [planned, scriptArguments, h]
  | linuxSssdLdap | linuxSssdOidc | windowsEntra => rfl

/-- The script of a plan has the tokens of its template with each value in one literal, unless the
allowed group of a Windows domain has a typographic quote, and no credential is part of the command,
for a profile that was validated or not. -/
theorem script_literal_safety (hplan : buildGuestIdentityReconcilePlan parseURL p r = .ok plan) :
    ((∃ script, plan.command = p.mode.interpreter p.platform ++ [script] ∧
        Quoted (p.mode.shell p.platform) (p.mode.template p.platform) (values parseURL p r)
          script) ↔
      (p.mode = .windowsAd → ∀ c ∈ (configString p.config "allowed_group").toList,
        c ∉ ['‘', '’', '‚', '‛'])) ∧
      ∀ r' plan', r'.joinUsername = r.joinUsername →
        buildGuestIdentityReconcilePlan parseURL p r' = .ok plan' →
          plan'.command = plan.command := by
  obtain ⟨hready, rfl⟩ := build_eq_ok.mp hplan
  refine ⟨⟨?_, fun hgroup => ?_⟩, fun r' plan' huser hplan' => ?_⟩
  · rintro ⟨script, -, hquoted⟩ hmode c hc hquote
    exact quotes_of_quoted hmode hquoted c hc (mem_cons_of_mem _ hquote)
  · obtain ⟨script, hcommand, hfilled⟩ := command_planned parseURL p r
    exact ⟨script, hcommand, quoted_of_values hfilled (p.mode.quotesHoles_template p.platform)
      (quotes_of_values hready hgroup)⟩
  · obtain ⟨-, rfl⟩ := build_eq_ok.mp hplan'
    exact command_congr huser

def windowsJoin (group : String) : Profile :=
  ⟨"ad", .windows, .windowsAd, true, [("domain", .string "corp.example"),
    ("join_method", .string "online"), ("allowed_group", .string group)]⟩

def joinRequest : ReconcileRequest := ⟨"join", "password", ""⟩

theorem script_literal_safety_windows : let p := windowsJoin "CORP\\Staff"
    ∃ plan script, buildGuestIdentityReconcilePlan (fun _ => none) p joinRequest = .ok plan ∧
      plan.command = p.mode.interpreter p.platform ++ [script] ∧
      Quoted .powershell (format windowsAdScript) ["join", "corp.example", restartMarker,
        "corp.example", "CORP\\Staff"] script := by
  intro p
  have hready : Ready (fun _ => none) p joinRequest := by
    refine ⟨?_, ?_, ?_, ?_, ?_, ?_⟩ <;> decide
  have hplan := build_eq_ok.mpr ⟨hready, rfl⟩
  obtain ⟨script, hcommand, hquoted⟩ := (script_literal_safety hplan).1.mpr
    fun _ => forall_mem_of_all (by decide)
  refine ⟨_, script, hplan, hcommand, ?_⟩
  have hvalues : values (fun _ => none) p joinRequest =
      ["join", "corp.example", restartMarker, "corp.example", "CORP\\Staff"] := by decide
  exact hvalues ▸ hquoted

/-- PowerShell takes a typographic quote for the end of a literal, and what follows for code. -/
theorem typographic_quote_ends_literal : let p := windowsJoin "Staff’,$(Stop-Computer),’"
    ∃ plan script,
      validateIdentityProfileConfig (fun _ => none) p.platform p.mode p.config = .ok () ∧
      buildGuestIdentityReconcilePlan (fun _ => none) p joinRequest = .ok plan ∧
      plan.command = p.mode.interpreter p.platform ++ [script] ∧
      Shell.powershell.lexer.tokens ScriptMode.code script.toList ≠
        (Shell.powershell.lexer.onTemplates.tokens ScriptMode.code (format windowsAdScript)).map
          (Token.fill (arguments (values (fun _ => none) p joinRequest))) := by
  intro p
  have hvalid : Valid (fun _ => none) p.platform p.mode p.config := by
    refine ⟨rfl, ?_, ?_, ?_, ensure_eq_ok.mpr ?_⟩ <;> decide
  have hready : Ready (fun _ => none) p joinRequest := by
    refine ⟨?_, ?_, ?_, ?_, ?_, ?_⟩ <;> decide
  obtain ⟨script, hcommand, hfilled⟩ := command_planned (fun _ => none) p joinRequest
  refine ⟨_, script, validate_eq_ok.mpr hvalid, build_eq_ok.mpr ⟨hready, rfl⟩, hcommand,
    fun htokens => ?_⟩
  have hgroup := quotes_of_quoted rfl ⟨hfilled, Mode.quotesHoles_template _ _, htokens⟩
  exact absurd (by decide) (hgroup '’' (by decide))

end Safety

end VcWorkspace.Server.IdentityProfile
