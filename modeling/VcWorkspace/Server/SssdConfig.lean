import VcWorkspace.Server.IdentityScripts
import VcWorkspace.Text.Ini

/-! # The generated sssd.conf

Three modes install a configuration file: two pipe an encoded text into it, one
writes its input. The file is read line by line. Its sections and options are those
of the mode, once each and in order, whatever the values of an accepted profile and
of the request are.
-/

namespace VcWorkspace.Server.IdentityProfile

open Store Transition Text List
open Fingerprint (Json)

variable {parseURL : String → Option URL} {p : Profile} {r : ReconcileRequest}
  {plan : GuestIdentityReconcilePlan}

section Installation

def installedFile (plan : GuestIdentityReconcilePlan) : Option (List UInt8) :=
  match plan.command with
  | [_, _, script] =>
    match piped id (Shell.sh.lexer.tokens ScriptMode.code script.toList) with
    | some text => Base64.decode text
    | none =>
      if "cat >/etc/sssd/sssd.conf".toList ∈ Ini.lines script.toList then some (utf8 plan.input)
      else none
  | _ => none

variable {values : ℕ → List Char} {cs : List Char} {t : Template}

theorem prefix_fill (h : cs.map .char <+: t) : cs <+: fill values t := by
  obtain ⟨rest, rfl⟩ := h
  rw [fill_append, Ini.fill_chars]
  exact prefix_append ..

theorem suffix_fill (h : cs.map .char <:+ t) : cs <:+ fill values t := by
  obtain ⟨front, rfl⟩ := h
  rw [fill_append, Ini.fill_chars]
  exact suffix_append ..

theorem piped_fill {tokens : List (Token Piece)} {text : Template}
    (h : piped Piece.char tokens = some text) :
    piped id (tokens.map (Token.fill values)) = some (fill values text) := by
  unfold piped at h ⊢
  split at h
  next after text blank fmt before rest hreverse =>
    obtain ⟨⟨hbefore, hprintf, rfl, rfl, htext, hafter, hpipe⟩, hsome⟩ :=
      Option.ite_none_right_eq_some.mp h
    cases hsome
    rw [← map_reverse, hreverse]
    simp only [map_cons, map_id, Token.fill, Ini.fill_chars, true_and]
    rw [if_pos ⟨hbefore, suffix_fill hprintf, htext, hafter, prefix_fill hpipe⟩]
  · cases h

theorem installedFile_of_piped {script contents : String} {template : Template}
    {args : List String} {i : ℕ} (hcommand : plan.command = shCommand script)
    (hscript : Quoted .sh template args script)
    (hpiped : piped Piece.char (Shell.sh.lexer.onTemplates.tokens ScriptMode.code template) =
      some [.hole i])
    (hvalue : args[i]? = some (base64 contents)) : installedFile plan = some (utf8 contents) := by
  have htext : piped id (Shell.sh.lexer.tokens ScriptMode.code script.toList) =
      some (Base64.encode (utf8 contents)) := by
    have htokens : Shell.sh.lexer.tokens ScriptMode.code script.toList = _ := hscript.tokens
    rw [htokens]
    refine (piped_fill hpiped).trans ?_
    simp [fill, Piece.fill, arguments, hvalue, base64]
  simp only [installedFile, hcommand, shCommand, htext, Base64.decode_encode]

set_option maxRecDepth 20000 in
theorem piped_oidc : piped id (Shell.sh.lexer.tokens ScriptMode.code oidcScript.toList) = none := by
  rw [show oidcScript.toList = _ from toList_join_eq (by repeat' constructor)]
  decide +kernel

set_option maxRecDepth 20000 in
theorem cat_oidc : "cat >/etc/sssd/sssd.conf".toList ∈ Ini.lines oidcScript.toList := by
  rw [show oidcScript.toList = _ from toList_join_eq (by repeat' constructor), toList_eq rfl]
  decide +kernel

def Mode.installs (mode : Mode) : Prop :=
  mode = .linuxSssdAd ∨ mode = .linuxSssdLdap ∨ mode = .linuxSssdOidc

theorem installedFile_planned (h : Ready parseURL p r) (hmode : p.mode.installs) :
    installedFile (planned parseURL p r) = some (utf8 (sssdFile parseURL p r)) := by
  obtain ⟨script, hcommand, hfilled⟩ := command_planned parseURL p r
  have hquotes := quotes_of_values h (by rcases hmode with h | h | h <;> simp [h])
  have hquoted := quoted_of_values hfilled (p.mode.quotesHoles_template p.platform) hquotes
  obtain ⟨_, platform, mode, _, config⟩ := p
  rcases hmode with rfl | rfl | rfl
  · exact installedFile_of_piped hcommand hquoted (Mode.template_linuxSssdAd platform).2 rfl
  · exact installedFile_of_piped hcommand hquoted (Mode.template_linuxSssdLdap platform).2 rfl
  · simp only [installedFile, planned, shCommand, piped_oidc, if_pos cat_oidc]

end Installation

section Layout

def domainOptions : Mode → List String
  | .linuxSssdAd =>
    ["id_provider", "auth_provider", "access_provider", "simple_allow_groups",
      "cache_credentials", "default_shell", "fallback_homedir", "use_fully_qualified_names",
      "ad_domain", "krb5_realm"]
  | .linuxSssdLdap =>
    ["id_provider", "auth_provider", "access_provider", "ldap_uri", "ldap_search_base",
      "ldap_access_filter", "ldap_id_use_start_tls", "ldap_tls_cacert", "cache_credentials",
      "default_shell", "fallback_homedir"]
  | .linuxSssdOidc =>
    ["id_provider", "auth_provider", "idp_type", "idp_client_id", "idp_client_secret",
      "idp_token_endpoint", "idp_userinfo_endpoint", "idp_device_auth_endpoint", "idp_id_scope",
      "idp_auth_scope", "default_shell", "fallback_homedir"]
  | _ => []

def layout (mode : Mode) (domain : String) : List (Ini.Line String) :=
  [.header "sssd", .option "services", .option "domains", .blank, .header ("domain/" ++ domain)] ++
    (domainOptions mode).map .option ++ [.blank]

def layoutTemplate (mode : Mode) : List (Ini.Line Template) :=
  [.header (verbatim "sssd"), .option (verbatim "services"), .option (verbatim "domains"), .blank,
      .header (verbatim "domain/" ++ [.hole 1])] ++
    (domainOptions mode).map (fun name => .option (verbatim name)) ++ [.blank]

set_option maxRecDepth 20000 in
/-- The lines of the formats are those of the layout, and no value is in a name. -/
theorem readTemplate_sssdFormat {mode : Mode} (hmode : mode.installs) :
    Ini.readTemplate (format (sssdFormat mode)) = layoutTemplate mode ∧
      ∀ l ∈ Ini.templateLines (format (sssdFormat mode)), Ini.fixesName l = true := by
  rcases hmode with rfl | rfl | rfl
  · rw [sssdFormat, format_eq (s := sssdAd) (toList_join_eq (by repeat' constructor))]
    decide +kernel
  · rw [sssdFormat, format_eq (s := sssdLdap) (toList_join_eq (by repeat' constructor))]
    decide +kernel
  · rw [sssdFormat, format_eq (s := sssdOidc) (toList_join_eq (by repeat' constructor))]
    decide +kernel

theorem readFile_of_singleLine {mode : Mode} {domain : String} {args : List String}
    (hmode : mode.installs) (hdomain : args[1]? = some domain) (hbracket : ']' ∉ domain.toList)
    (hbreaks : ∀ v ∈ args, ∀ c ∈ v.toList, c ∉ Ini.lineBreaks) :
    Ini.readFile (sprintf (sssdFormat mode) args) = layout mode domain := by
  obtain ⟨hread, hnames⟩ := readTemplate_sssdFormat hmode
  have hvalue : arguments args 1 = domain.toList := by simp [arguments, hdomain]
  have hheaders : ∀ name, .header name ∈ layoutTemplate mode →
      ∀ i ∈ holes name, ']' ∉ arguments args i := by
    intro name hname i hi
    have hcases : name = verbatim "sssd" ∨ name = verbatim "domain/" ++ [.hole 1] := by
      simpa [layoutTemplate] using hname
    rcases hcases with rfl | rfl
    · cases hi
    · obtain rfl : i = 1 := by simpa [holes, verbatim] using hi
      rwa [hvalue]
  have hsection : String.ofList (fill (arguments args) (verbatim "domain/" ++ [.hole 1])) =
      "domain/" ++ domain := by
    rw [fill_append, fill_verbatim, String.ofList_append, String.ofList_toList]
    simp [fill, Piece.fill, hvalue]
  rw [Ini.readFile, toList_sprintf, Ini.read_fill hnames (forall_mem_arguments hbreaks)
    (hread ▸ hheaders), hread]
  simp only [layoutTemplate, layout, map_append, map_cons, map_nil, map_map,
    Ini.Line.map, fill_verbatim, String.ofList_toList, hsection, Function.comp_def]

end Layout

section SingleLine

variable {config : Config} {s : String}

theorem mem_of_mem_trimSpace {c : Char} (h : c ∈ (trimSpace s).toList) : c ∈ s.toList := by
  rw [trimSpace, String.toList_ofList, mem_reverse] at h
  have hinner := (dropWhile_suffix _).subset h
  exact (dropWhile_suffix _).subset (mem_reverse.mp hinner)

theorem singleLine_of_mem {key : String} {v : Json}
    (h : membersContainMultiline config = false) (hmem : (key, v) ∈ config) :
    containsMultilineConfigValue v = false := by
  induction config with
  | nil => cases hmem
  | cons m ms ih =>
    simp only [membersContainMultiline, Bool.or_eq_false_iff] at h
    rcases mem_cons.mp hmem with heq | hmem
    · cases heq
      exact h.1
    · exact ih h.2 hmem

/-- The fields of a configuration that the validator takes have no line breaks. -/
theorem configString_singleLine (h : containsMultilineConfigValue (.object config) = false)
    (key : String) : ∀ c ∈ (configString config key).toList, c ∉ Ini.lineBreaks := by
  intro c hc hbreak
  have hne : configString config key ≠ "" := by
    intro hempty
    rw [hempty] at hc
    cases hc
  obtain ⟨s, hmem, hvalue⟩ := exists_of_configString hne
  rw [hvalue] at hc
  have hline : containsAny s ['\r', '\n'] = false := by
    simpa [containsMultilineConfigValue] using singleLine_of_mem h hmem
  have hany : containsAny s ['\r', '\n'] = true := by
    refine any_eq_true.mpr ⟨c, mem_of_mem_trimSpace hc, ?_⟩
    simpa [Ini.lineBreaks, or_comm] using hbreak
  rw [hline] at hany
  cases hany

theorem Plain.singleLine (h : Plain s) : ∀ c ∈ s.toList, c ∉ Ini.lineBreaks := by
  have hplain : ∀ c ∈ plainChars, c ∉ Ini.lineBreaks := forall_mem_of_all (by decide)
  exact fun c hc => hplain c (h c hc)

theorem plain_domain (h : Ready parseURL p r) (hmode : p.mode.installs) :
    Plain (configString p.config "domain") := by
  obtain ⟨_, platform, mode, _, config⟩ := p
  rcases hmode with rfl | rfl | rfl
  · exact plain_of_name h.1.1
  · exact plain_of_name h.1
  · exact plain_of_name h.1.1

theorem sssdArguments_singleLine (h : Ready parseURL p r)
    (hline : containsMultilineConfigValue (.object p.config) = false)
    (hsecret : p.mode = .linuxSssdOidc → ∀ c ∈ r.clientSecret.toList, c ∉ Ini.lineBreaks) :
    ∀ v ∈ sssdArguments parseURL p r, ∀ c ∈ v.toList, c ∉ Ini.lineBreaks := by
  have hvalue := configString_singleLine hline
  obtain ⟨_, platform, mode, _, config⟩ := p
  cases mode with
  | linuxSssdAd =>
    obtain ⟨⟨-, hrealm, -, -⟩, -⟩ := h
    simp only [sssdArguments, forall_mem_cons]
    exact ⟨hvalue _, hvalue _, hvalue _, hvalue _, (plain_of_name hrealm).toUpper.singleLine,
      forall_mem_nil _⟩
  | linuxSssdLdap =>
    simp only [sssdArguments, forall_mem_cons]
    refine ⟨hvalue _, hvalue _, hvalue _, hvalue _, hvalue _, ?_, forall_mem_nil _⟩
    split <;> exact forall_mem_of_all (by decide)
  | linuxSssdOidc =>
    simp only [sssdArguments, forall_mem_cons]
    exact ⟨hvalue _, hvalue _, hvalue _, hvalue _, hsecret rfl, hvalue _, hvalue _, hvalue _,
      hvalue _, forall_mem_nil _⟩
  | managedLocal | linuxSssdFreeipa | windowsAd | windowsEntra => exact forall_mem_nil _

/-- The file of an accepted profile has the sections and options of its mode, in order and each
option once. -/
theorem sssd_file_structure
    (hvalid : validateIdentityProfileConfig parseURL p.platform p.mode p.config = .ok ())
    (hplan : buildGuestIdentityReconcilePlan parseURL p r = .ok plan) (hmode : p.mode.installs) :
    ∃ file : String, installedFile plan = some (utf8 file) ∧
      Ini.readFile file = layout p.mode (configString p.config "domain") ∧
      (Ini.optionNames (Ini.readFile file)).Nodup := by
  obtain ⟨hready, rfl⟩ := build_eq_ok.mp hplan
  have hprofile := validate_eq_ok.mp hvalid
  have hlayout : Ini.readFile (sssdFile parseURL p r) =
      layout p.mode (configString p.config "domain") := by
    refine readFile_of_singleLine hmode ?_
      (fun hc => absurd (plain_domain hready hmode _ hc) (by decide))
      (sssdArguments_singleLine hready hprofile.singleLine fun hoidc =>
        absurd (hoidc ▸ hprofile) not_valid_oidc)
    obtain ⟨_, platform, mode, _, config⟩ := p
    rcases hmode with rfl | rfl | rfl <;> rfl
  have hnames : Ini.optionNames (layout p.mode (configString p.config "domain")) =
      ["services", "domains"] ++ domainOptions p.mode := by
    simp [layout, Ini.optionNames]
  refine ⟨sssdFile parseURL p r, installedFile_planned hready hmode, hlayout, ?_⟩
  rw [hlayout, hnames]
  rcases hmode with h | h | h <;> rw [h] <;> decide

theorem sssd_file_structure_ldap : let p : Profile := ⟨"staff", .linux, .linuxSssdLdap, true,
      sampleConfig "ldaps://ldap.corp.test" .linuxSssdLdap⟩
    ∃ plan file, buildGuestIdentityReconcilePlan twoAddresses p ⟨"", "", ""⟩ = .ok plan ∧
      installedFile plan = some (utf8 file) ∧
      Ini.readFile file = layout .linuxSssdLdap "corp.test" := by
  intro p
  have huri : LdapAddress twoAddresses "ldaps://ldap.corp.test" :=
    ⟨by decide, by decide, by decide, by decide⟩
  have hvalid : Valid twoAddresses p.platform p.mode p.config :=
    valid_sample huri (by decide) (by decide)
  have hready : Ready twoAddresses p ⟨"", "", ""⟩ := by
    refine ⟨?_, ?_, ?_, ?_⟩ <;> decide
  have hplan := build_eq_ok.mpr ⟨hready, rfl⟩
  obtain ⟨file, hfile, hlayout, -⟩ := sssd_file_structure (validate_eq_ok.mpr hvalid) hplan
    (.inr (.inl rfl))
  exact ⟨_, file, hplan, hfile, hlayout⟩

end SingleLine

end VcWorkspace.Server.IdentityProfile
