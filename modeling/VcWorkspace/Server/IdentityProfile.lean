import VcWorkspace.Server.Fingerprint
import VcWorkspace.Store.GatewayTicket
import VcWorkspace.Text.Base64
import VcWorkspace.Text.Template

/-! # Identity profiles

A profile says how the accounts of a Guest are provided. Its configuration is a
JSON object that is validated when the profile is saved. A reconciliation reads
the stored profile and turns it, with one-time credentials of its request, into a
command for the Guest. The validator and the planner have their own checks.
-/

namespace VcWorkspace.Server.IdentityProfile

open Store Transition Text List
open Bool (and_eq_true not_eq_true')
open Fingerprint (Json)

section Texts

def charRange (lo hi : Char) : List Char :=
  (List.range (hi.toNat + 1 - lo.toNat)).map fun i => Char.ofNat (lo.toNat + i)

def alphanumeric : List Char := charRange 'A' 'Z' ++ charRange 'a' 'z' ++ charRange '0' '9'

/-- `^[A-Za-z0-9][A-Za-z0-9.-]{0,252}$` -/
def directoryNamePattern (s : String) : Bool :=
  match s.toList with
  | [] => false
  | c :: cs => c ∈ alphanumeric && cs.length ≤ 252 && cs.all (· ∈ alphanumeric ++ ['.', '-'])

/-- `^[A-Za-z0-9][A-Za-z0-9._@\\-]{0,127}$` -/
def directoryPrincipalPattern (s : String) : Bool :=
  match s.toList with
  | [] => false
  | c :: cs =>
    c ∈ alphanumeric && cs.length ≤ 127 && cs.all (· ∈ alphanumeric ++ ['.', '_', '@', '\\', '-'])

/-- `^[A-Za-z0-9](?:[A-Za-z0-9 ._@\\,-]{0,510}[A-Za-z0-9])?$` -/
def directoryGroupListPattern (s : String) : Bool :=
  match s.toList with
  | [] => false
  | c :: cs =>
    c ∈ alphanumeric && cs.length ≤ 511 && cs.getLast?.all (· ∈ alphanumeric) &&
      cs.dropLast.all (· ∈ alphanumeric ++ [' ', '.', '_', '@', '\\', ',', '-'])

def hexadecimal : List Char := charRange '0' '9' ++ charRange 'a' 'f' ++ charRange 'A' 'F'

/-- Groups of hexadecimal digits of some lengths, with dashes between them. -/
def hexGroups : List ℕ → List Char → Bool
  | [], _ => false
  | [n], cs => cs.length == n && cs.all (· ∈ hexadecimal)
  | n :: ns, cs =>
    (cs.take n).length == n && (cs.take n).all (· ∈ hexadecimal) && match cs.drop n with
      | '-' :: rest => hexGroups ns rest
      | _ => false

def tenantIDPattern (s : String) : Bool := hexGroups [8, 4, 4, 4, 12] s.toList

def lowerRune (c : Char) : Char :=
  if 'A' ≤ c ∧ c ≤ 'Z' then Char.ofNat (c.toNat + 32)
  else if c = '\u0130' then 'i'
  else if c = '\u212a' then 'k'
  else c

def upperRune (c : Char) : Char :=
  if 'a' ≤ c ∧ c ≤ 'z' then Char.ofNat (c.toNat - 32) else c

def toUpper (s : String) : String := String.ofList (s.toList.map upperRune)

def containsText (s : List Char) (word : String) : Bool :=
  s.tails.any fun t => word.toList.isPrefixOf t

def containsAny (s : String) (cs : List Char) : Bool := s.toList.any (· ∈ cs)

structure URL where
  scheme : String
  host : String
  deriving DecidableEq, Repr

end Texts

section Validation

inductive Mode
  | managedLocal
  | linuxSssdAd
  | linuxSssdFreeipa
  | linuxSssdLdap
  | linuxSssdOidc
  | windowsAd
  | windowsEntra
  deriving DecidableEq, Repr

def Mode.platform : Mode → Option OsFamily
  | .managedLocal => none
  | .linuxSssdAd | .linuxSssdFreeipa | .linuxSssdLdap | .linuxSssdOidc => some .linux
  | .windowsAd | .windowsEntra => some .windows

abbrev Config := List (String × Json)

def configString (config : Config) (key : String) : String :=
  match config.find? (·.1 == key) with
  | some (_, .string s) => trimSpace s
  | _ => ""

mutual

def containsMultilineConfigValue : Json → Bool
  | .string s => containsAny s ['\r', '\n']
  | .object ms => membersContainMultiline ms
  | .array vs => valuesContainMultiline vs
  | _ => false

def membersContainMultiline : List (String × Json) → Bool
  | [] => false
  | (_, v) :: ms => containsMultilineConfigValue v || membersContainMultiline ms

def valuesContainMultiline : List Json → Bool
  | [] => false
  | v :: vs => containsMultilineConfigValue v || valuesContainMultiline vs

end

def secretKey (key : String) : Bool :=
  let normalized := (trimSpace key).toList.map lowerRune
  normalized != "credential_reference".toList &&
    normalized != "offline_join_blob_reference".toList &&
    (containsText normalized "password" || containsText normalized "secret" ||
      containsText normalized "token" || containsText normalized "private_key")

mutual

def containsInlineSecret : Json → Bool
  | .object ms => membersContainSecret ms
  | .array vs => valuesContainSecret vs
  | _ => false

def membersContainSecret : List (String × Json) → Bool
  | [] => false
  | (key, v) :: ms => secretKey key || containsInlineSecret v || membersContainSecret ms

def valuesContainSecret : List Json → Bool
  | [] => false
  | v :: vs => containsInlineSecret v || valuesContainSecret vs

end

def Mode.required : Mode → List String
  | .managedLocal => []
  | .linuxSssdAd => ["domain", "realm", "allowed_groups"]
  | .linuxSssdFreeipa => ["domain", "server", "realm"]
  | .linuxSssdLdap => ["domain", "uri", "search_base", "access_filter"]
  | .linuxSssdOidc =>
    ["domain", "idp_type", "client_id", "token_endpoint", "userinfo_endpoint",
      "device_auth_endpoint", "id_scope"]
  | .windowsAd => ["domain", "join_method", "allowed_group"]
  | .windowsEntra => ["tenant_id", "target_hostname", "allowed_principal"]

variable (parseURL : String → Option URL)

def ldapURL (uri : String) : Bool :=
  (parseURL uri).any fun u => (u.scheme == "ldap" || u.scheme == "ldaps") && u.host != ""

def httpsURL (endpoint : String) : Bool :=
  (parseURL endpoint).any fun u => u.scheme == "https" && u.host != ""

def supportedIdpType (idpType : String) : Bool :=
  idpType == "entra_id" || "keycloak:".toList.isPrefixOf idpType.toList

def validateMode (mode : Mode) (config : Config) : Except String Unit :=
  let value := configString config
  match mode with
  | .managedLocal => pure ()
  | .linuxSssdAd =>
    ensure "AD domain, realm, or allowed groups are invalid"
      (directoryNamePattern (value "domain") && directoryNamePattern (value "realm") &&
        directoryGroupListPattern (value "allowed_groups"))
  | .linuxSssdFreeipa =>
    ensure "FreeIPA domain, server, or realm are invalid"
      (directoryNamePattern (value "domain") && directoryNamePattern (value "server") &&
        directoryNamePattern (value "realm"))
  | .linuxSssdLdap =>
    ensure "LDAP domain and LDAP(S) URI are invalid"
      (directoryNamePattern (value "domain") && ldapURL parseURL (value "uri"))
  | .linuxSssdOidc => do
    ensure "SSSD OIDC domain or provider type is invalid"
      (directoryNamePattern (value "domain") && supportedIdpType (value "idp_type"))
    forEach (fun key =>
        ensure ("identity profile config field \"" ++ key ++ "\" must be an absolute HTTPS URL")
          (httpsURL parseURL (value key)))
      ["token_endpoint", "userinfo_endpoint", "device_auth_endpoint"]
  | .windowsAd =>
    ensure "Windows AD currently supports only a valid online join profile"
      (value "join_method" == "online" && directoryNamePattern (value "domain") &&
        !containsAny (value "allowed_group") ['\r', '\n', '\'', ';'])
  | .windowsEntra =>
    ensure "Windows Entra tenant, target hostname, or principal are invalid"
      (tenantIDPattern (value "tenant_id") && directoryNamePattern (value "target_hostname") &&
        directoryPrincipalPattern (value "allowed_principal"))

def validateIdentityProfileConfig (platform : OsFamily) (mode : Mode) (config : Config) :
    Except String Unit := do
  ensure "identity profile mode does not match its platform" (mode.platform.all (· == platform))
  ensure
    ("identity profiles may contain secret references, but not inline passwords, tokens, or " ++
      "private keys") (!containsInlineSecret (.object config))
  ensure "identity profile string values must be single-line"
    (!containsMultilineConfigValue (.object config))
  forEach (fun key =>
      ensure ("identity profile config field \"" ++ key ++ "\" is required")
        (configString config key != ""))
    mode.required
  validateMode parseURL mode config

end Validation

section Scripts

def managedLinux : String := String.join
  ["set -eu; test -f /usr/share/vc-workspace/identity-capabilities.json; command -v useradd ",
    ">/dev/null; command -v xrdp >/dev/null"]

def managedWindows : String := String.join
  ["$ErrorActionPreference='Stop'; if (-not (Test-Path 'C:\\ProgramData\\VC ",
    "Workspace\\identity-capabilities.json')) \x7b throw 'identity capabilities are missing' ",
    "\x7d; Get-Service TermService | Out-Null"]

def sssdAd : String := String.join ["[sssd]\n", "services = nss, pam\n", "domains = %s\n", "\n",
    "[domain/%s]\n",
    "id_provider = ad\n",
    "auth_provider = ad\n",
    "access_provider = simple\n",
    "simple_allow_groups = %s\n",
    "cache_credentials = true\n",
    "default_shell = /bin/bash\n",
    "fallback_homedir = /home/%%d/%%u\n",
    "use_fully_qualified_names = true\n",
    "ad_domain = %s\n",
    "krb5_realm = %s\n"]

def joinAd : String := String.join
  ["test -f /usr/share/vc-workspace/identity-capabilities.json; password=$(cat); if ! realm ",
    "list --name-only | grep -Fxiq '%s'; then printf '%%s\\n' \"$password\" | realm join ",
    "--user='%s' '%s'; fi"]

def freeipaScript : String := String.join ["set -eu\n",
    "test -f /usr/share/vc-workspace/identity-capabilities.json\n",
    "password=$(cat)\n",
    "if [ ! -f /etc/ipa/default.conf ]; then\n  printf '%%s\\n' \"$password\" | kinit '%s'\n  ",
    "ipa-client-install --unattended --mkhomedir --no-ntp --domain='%s' --realm='%s' ",
    "--server='%s' --principal='%s'\n  kdestroy\n",
    "fi\n",
    "systemctl enable sssd oddjobd\n",
    "systemctl restart sssd\n",
    "systemctl start oddjobd\n",
    "sssctl config-check"]

def checkCapabilities : String := "test -f /usr/share/vc-workspace/identity-capabilities.json"

/-- The arguments: domain, domain, URI, search base, access filter, and whether to start TLS. -/
def sssdLdap : String := String.join ["[sssd]\n", "services = nss, pam\n", "domains = %s\n", "\n",
    "[domain/%s]\n",
    "id_provider = ldap\n",
    "auth_provider = ldap\n",
    "access_provider = ldap\n",
    "ldap_uri = %s\n",
    "ldap_search_base = %s\n",
    "ldap_access_filter = %s\n",
    "ldap_id_use_start_tls = %s\n",
    "ldap_tls_cacert = /etc/ssl/certs/ca-certificates.crt\n",
    "cache_credentials = true\n",
    "default_shell = /bin/bash\n",
    "fallback_homedir = /home/%%d/%%u\n"]

/-- The arguments: domain, domain, provider, client, secret, the three endpoints, scope. -/
def sssdOidc : String := String.join ["[sssd]\n", "services = nss, pam\n", "domains = %s\n", "\n",
    "[domain/%s]\n",
    "id_provider = idp\n",
    "auth_provider = idp\n",
    "idp_type = %s\n",
    "idp_client_id = %s\n",
    "idp_client_secret = %s\n",
    "idp_token_endpoint = %s\n",
    "idp_userinfo_endpoint = %s\n",
    "idp_device_auth_endpoint = %s\n",
    "idp_id_scope = %s\n",
    "idp_auth_scope = openid profile email\n",
    "default_shell = /bin/bash\n",
    "fallback_homedir = /home/%%f\n"]

def oidcScript : String := String.join ["set -eu\n",
    "test -f /usr/share/vc-workspace/identity-capabilities.json\n",
    "test -x /usr/libexec/sssd/oidc_child -o -x /usr/lib/sssd/oidc_child\n",
    "cat >/etc/sssd/sssd.conf\n",
    "chmod 0600 /etc/sssd/sssd.conf\n",
    "chown root:root /etc/sssd/sssd.conf\n",
    "pam-auth-update --package --enable mkhomedir >/dev/null\n",
    "systemctl enable sssd oddjobd\n",
    "systemctl restart sssd\n",
    "systemctl start oddjobd\n",
    "sssctl config-check"]

/-- The arguments: join user, domain, restart marker, domain, allowed group. -/
def windowsAdScript : String := String.join
  ["$ErrorActionPreference='Stop'; if (-not (Test-Path 'C:\\ProgramData\\VC ",
    "Workspace\\identity-capabilities.json')) \x7b throw 'identity capabilities are missing' ",
    "\x7d; $computer=Get-CimInstance Win32_ComputerSystem; if (-not $computer.PartOfDomain) ",
    "\x7b $secret=[Console]::In.ReadToEnd().TrimEnd(); $secure=ConvertTo-SecureString $secret ",
    "-AsPlainText -Force; $credential=[PSCredential]::new('%s',$secure); Add-Computer ",
    "-DomainName '%s' -Credential $credential -Force; Write-Output '%s'; exit 0 \x7d; if ",
    "($computer.Domain -ine '%s') \x7b throw 'desktop is joined to a different domain' \x7d; ",
    "$rdp=(Get-LocalGroup -SID 'S-1-5-32-555').Name; Add-LocalGroupMember -Group $rdp -Member ",
    "'%s' -ErrorAction SilentlyContinue"]

def entraScript : String := String.join
  ["$ErrorActionPreference='Stop'; if (-not (Test-Path 'C:\\ProgramData\\VC ",
    "Workspace\\identity-capabilities.json')) \x7b throw 'identity capabilities are missing' ",
    "\x7d; $status=(& dsregcmd.exe /status | Out-String); if ($status -notmatch ",
    "'AzureAdJoined\\s*:\\s*YES') \x7b throw 'device is not Microsoft Entra joined' \x7d; if ",
    "($status -notmatch '(?im)^\\s*TenantId\\s*:\\s*%s\\s*$') \x7b throw 'device tenant does ",
    "not match the identity profile' \x7d; if ($env:COMPUTERNAME -ine '%s') \x7b throw ",
    "'desktop hostname does not match the Entra RDP target' \x7d; $rdp=(Get-LocalGroup -SID ",
    "'S-1-5-32-555').Name; Add-LocalGroupMember -Group $rdp -Member 'AzureAD\\%s' -ErrorAction ",
    "SilentlyContinue"]

/-- What `linuxInstall` writes around the commands before it and around the encoded file. -/
def installPrefix : String := "set -eu\n"

def installMiddle : String := "\nprintf '%s' '"

def installSuffix : String := String.join ["' | base64 -d >/etc/sssd/sssd.conf\n",
    "chmod 0600 /etc/sssd/sssd.conf\n",
    "chown root:root /etc/sssd/sssd.conf\n",
    "DEBIAN_FRONTEND=noninteractive pam-auth-update --package --enable mkhomedir >/dev/null\n",
    "systemctl enable sssd oddjobd\n",
    "systemctl restart sssd\n",
    "systemctl start oddjobd\n",
    "sssctl config-check"]

end Scripts

section Planning

structure Profile where
  id : String
  platform : OsFamily
  mode : Mode
  enabled : Bool
  config : Config

structure ReconcileRequest where
  joinUsername : String
  joinPassword : String
  clientSecret : String
  deriving DecidableEq, Repr

structure GuestIdentityReconcilePlan where
  command : List String
  input : String
  restartRequired : Bool
  restartMarker : String
  deriving DecidableEq, Repr

def shCommand (script : String) : List String := ["/bin/sh", "-c", script]

def powershell : String := "C:\\Windows\\System32\\WindowsPowerShell\\v1.0\\powershell.exe"

def powershellCommand (script : String) : List String :=
  [powershell, "-NoLogo", "-NoProfile", "-NonInteractive", "-ExecutionPolicy", "Bypass", "-Command",
    script]

def utf8 (s : String) : List UInt8 := s.toByteArray.data.toList

def base64 (s : String) : String := String.ofList (Base64.encode (utf8 s))

def linuxInstall (contents before : String) : GuestIdentityReconcilePlan :=
  ⟨shCommand (installPrefix ++ before ++ installMiddle ++ base64 contents ++ installSuffix), "",
    false, ""⟩

def restartMarker : String := "VC_WORKSPACE_RESTART_REQUIRED"

variable (parseURL : String → Option URL)

def buildGuestIdentityReconcilePlan (profile : Profile) (request : ReconcileRequest) :
    Except String GuestIdentityReconcilePlan :=
  let value := configString profile.config
  match profile.mode with
  | .managedLocal =>
    match profile.platform with
    | .linux => pure ⟨shCommand managedLinux, "", false, ""⟩
    | .windows =>
      pure ⟨[powershell, "-NoLogo", "-NoProfile", "-NonInteractive", "-Command", managedWindows],
        "", false, ""⟩
  | .linuxSssdAd => do
    let domain := value "domain"
    let realm := value "realm"
    ensure ("AD reconciliation requires a valid domain, realm, join username, and one-time join " ++
      "password")
      (directoryNamePattern domain && directoryNamePattern realm &&
        directoryPrincipalPattern request.joinUsername && request.joinPassword != "")
    let allowed := value "allowed_groups"
    ensure "AD identity profile requires allowed_groups to prevent unrestricted guest login"
      (directoryGroupListPattern allowed)
    let sssd := sprintf sssdAd [domain, domain, allowed, domain, toUpper realm]
    let plan := linuxInstall sssd (sprintf joinAd [domain, request.joinUsername, domain])
    pure { plan with input := request.joinPassword }
  | .linuxSssdFreeipa => do
    let domain := value "domain"
    let server := value "server"
    let realm := value "realm"
    ensure ("FreeIPA reconciliation requires a valid domain, server, realm, join username, and " ++
      "one-time join password")
      (directoryNamePattern domain && directoryNamePattern server && directoryNamePattern realm &&
        directoryPrincipalPattern request.joinUsername && request.joinPassword != "")
    let script := sprintf freeipaScript
      [request.joinUsername, domain, toUpper realm, server, request.joinUsername]
    pure ⟨shCommand script, request.joinPassword, false, ""⟩
  | .linuxSssdLdap => do
    let domain := value "domain"
    let uri := value "uri"
    let searchBase := value "search_base"
    let accessFilter := value "access_filter"
    ensure "LDAP reconciliation requires domain, LDAP(S) URI, search base, and access filter"
      (directoryNamePattern domain && ldapURL parseURL uri && searchBase != "" &&
        accessFilter != "")
    let startTLS :=
      if (parseURL uri).any (fun u => u.scheme == "ldap") then "true" else "false"
    let sssd := sprintf sssdLdap [domain, domain, uri, searchBase, accessFilter, startTLS]
    pure (linuxInstall sssd checkCapabilities)
  | .linuxSssdOidc => do
    let domain := value "domain"
    let idpType := value "idp_type"
    let clientID := value "client_id"
    let tokenEndpoint := value "token_endpoint"
    let userinfoEndpoint := value "userinfo_endpoint"
    let deviceEndpoint := value "device_auth_endpoint"
    ensure ("SSSD OIDC reconciliation requires a supported idp_type, domain, client ID, and " ++
      "one-time client secret")
      (directoryNamePattern domain && supportedIdpType idpType && clientID != "" &&
        request.clientSecret != "")
    ensure "SSSD OIDC endpoints must be absolute HTTPS URLs"
      ([tokenEndpoint, userinfoEndpoint, deviceEndpoint].all (httpsURL parseURL))
    let sssd := sprintf sssdOidc [domain, domain, idpType, clientID, request.clientSecret,
      tokenEndpoint, userinfoEndpoint, deviceEndpoint, value "id_scope"]
    pure ⟨shCommand oidcScript, sssd, false, ""⟩
  | .windowsAd => do
    let domain := value "domain"
    let allowedGroup := value "allowed_group"
    let joinMethod := value "join_method"
    ensure
      ("Windows AD reconciliation requires domain, allowed group, join username, and one-time " ++
      "join password")
      (joinMethod == "online" && directoryNamePattern domain &&
        directoryPrincipalPattern request.joinUsername && request.joinPassword != "" &&
        allowedGroup != "" && !containsAny allowedGroup ['\r', '\n', '\'', ';'])
    let script := sprintf windowsAdScript
      [request.joinUsername, domain, restartMarker, domain, allowedGroup]
    pure ⟨powershellCommand script, request.joinPassword, false, restartMarker⟩
  | .windowsEntra => do
    let principal := value "allowed_principal"
    let hostname := value "target_hostname"
    let tenantID := value "tenant_id"
    ensure "Windows Entra reconciliation requires a target hostname and allowed Entra principal"
      (directoryPrincipalPattern principal && directoryNamePattern hostname &&
        tenantIDPattern tenantID)
    let script := sprintf entraScript [tenantID, hostname, principal]
    pure ⟨powershellCommand script, "", false, ""⟩

end Planning

variable {parseURL : String → Option URL} {p : Profile} {r : ReconcileRequest}
  {plan : GuestIdentityReconcilePlan} {platform : OsFamily} {mode : Mode} {config : Config}

section Specification

def Ready (parseURL : String → Option URL) (p : Profile) (r : ReconcileRequest) : Prop :=
  let value := configString p.config
  match p.mode with
  | .managedLocal => True
  | .linuxSssdAd =>
    (directoryNamePattern (value "domain") ∧ directoryNamePattern (value "realm") ∧
        directoryPrincipalPattern r.joinUsername ∧ r.joinPassword ≠ "") ∧
      directoryGroupListPattern (value "allowed_groups")
  | .linuxSssdFreeipa =>
    directoryNamePattern (value "domain") ∧ directoryNamePattern (value "server") ∧
      directoryNamePattern (value "realm") ∧ directoryPrincipalPattern r.joinUsername ∧
      r.joinPassword ≠ ""
  | .linuxSssdLdap =>
    directoryNamePattern (value "domain") ∧ ldapURL parseURL (value "uri") ∧
      value "search_base" ≠ "" ∧ value "access_filter" ≠ ""
  | .linuxSssdOidc =>
    (directoryNamePattern (value "domain") ∧ supportedIdpType (value "idp_type") ∧
        value "client_id" ≠ "" ∧ r.clientSecret ≠ "") ∧
      ∀ key ∈ ["token_endpoint", "userinfo_endpoint", "device_auth_endpoint"],
        httpsURL parseURL (value key)
  | .windowsAd =>
    value "join_method" = "online" ∧ directoryNamePattern (value "domain") ∧
      directoryPrincipalPattern r.joinUsername ∧ r.joinPassword ≠ "" ∧
      value "allowed_group" ≠ "" ∧ ¬containsAny (value "allowed_group") ['\r', '\n', '\'', ';']
  | .windowsEntra =>
    directoryPrincipalPattern (value "allowed_principal") ∧
      directoryNamePattern (value "target_hostname") ∧ tenantIDPattern (value "tenant_id")

/-- The format of the file that the planner writes. -/
def sssdFormat : Mode → String
  | .linuxSssdAd => sssdAd
  | .linuxSssdLdap => sssdLdap
  | .linuxSssdOidc => sssdOidc
  | _ => ""

def sssdArguments (parseURL : String → Option URL) (p : Profile) (r : ReconcileRequest) :
    List String :=
  let value := configString p.config
  match p.mode with
  | .linuxSssdAd => [value "domain", value "domain", value "allowed_groups", value "domain",
      toUpper (value "realm")]
  | .linuxSssdLdap => [value "domain", value "domain", value "uri", value "search_base",
      value "access_filter",
      if (parseURL (value "uri")).any (fun u => u.scheme == "ldap") then "true" else "false"]
  | .linuxSssdOidc => [value "domain", value "domain", value "idp_type", value "client_id",
      r.clientSecret, value "token_endpoint", value "userinfo_endpoint",
      value "device_auth_endpoint", value "id_scope"]
  | _ => []

def sssdFile (parseURL : String → Option URL) (p : Profile) (r : ReconcileRequest) : String :=
  sprintf (sssdFormat p.mode) (sssdArguments parseURL p r)

/-- The values that the planner puts into its script, apart from an encoded file. -/
def scriptArguments (p : Profile) (r : ReconcileRequest) : List String :=
  let value := configString p.config
  match p.mode with
  | .linuxSssdAd => [value "domain", r.joinUsername, value "domain"]
  | .linuxSssdFreeipa =>
    [r.joinUsername, value "domain", toUpper (value "realm"), value "server", r.joinUsername]
  | .windowsAd =>
    [r.joinUsername, value "domain", restartMarker, value "domain", value "allowed_group"]
  | .windowsEntra => [value "tenant_id", value "target_hostname", value "allowed_principal"]
  | _ => []

def planned (parseURL : String → Option URL) (p : Profile) (r : ReconcileRequest) :
    GuestIdentityReconcilePlan :=
  match p.mode with
  | .managedLocal =>
    match p.platform with
    | .linux => ⟨shCommand managedLinux, "", false, ""⟩
    | .windows =>
      ⟨[powershell, "-NoLogo", "-NoProfile", "-NonInteractive", "-Command", managedWindows], "",
        false, ""⟩
  | .linuxSssdAd =>
    { linuxInstall (sssdFile parseURL p r) (sprintf joinAd (scriptArguments p r)) with
      input := r.joinPassword }
  | .linuxSssdFreeipa =>
    ⟨shCommand (sprintf freeipaScript (scriptArguments p r)), r.joinPassword, false, ""⟩
  | .linuxSssdLdap => linuxInstall (sssdFile parseURL p r) checkCapabilities
  | .linuxSssdOidc => ⟨shCommand oidcScript, sssdFile parseURL p r, false, ""⟩
  | .windowsAd =>
    ⟨powershellCommand (sprintf windowsAdScript (scriptArguments p r)), r.joinPassword, false,
      restartMarker⟩
  | .windowsEntra =>
    ⟨powershellCommand (sprintf entraScript (scriptArguments p r)), "", false, ""⟩

theorem build_eq_ok : buildGuestIdentityReconcilePlan parseURL p r = .ok plan ↔
    Ready parseURL p r ∧ plan = planned parseURL p r := by
  obtain ⟨_, platform, mode, _, config⟩ := p
  cases mode with
  | managedLocal =>
    cases platform <;> simp [buildGuestIdentityReconcilePlan, Ready, planned, pure_eq_ok]
  | linuxSssdAd | linuxSssdFreeipa | linuxSssdLdap | windowsAd | windowsEntra =>
    simp only [buildGuestIdentityReconcilePlan, seq_eq_ok, ensure_eq_ok, pure_eq_ok,
      and_eq_true, bne_iff_ne, beq_iff_eq, not_eq_true', Bool.not_eq_true, Ready, planned,
      sssdFile, sssdFormat, sssdArguments, scriptArguments, and_assoc]
  | linuxSssdOidc =>
    simp only [buildGuestIdentityReconcilePlan, seq_eq_ok, ensure_eq_ok, pure_eq_ok,
      and_eq_true, bne_iff_ne, all_eq_true, forall_mem_cons, not_mem_nil,
      false_imp_iff, implies_true, true_and, Ready, planned, sssdFile, sssdFormat,
      sssdArguments, and_assoc]

structure Valid (parseURL : String → Option URL) (platform : OsFamily) (mode : Mode)
    (config : Config) : Prop where
  platform : mode.platform.all (· == platform) = true
  secret : containsInlineSecret (.object config) = false
  singleLine : containsMultilineConfigValue (.object config) = false
  required : ∀ key ∈ mode.required, configString config key ≠ ""
  mode : validateMode parseURL mode config = .ok ()

theorem validate_eq_ok : validateIdentityProfileConfig parseURL platform mode config = .ok () ↔
    Valid parseURL platform mode config := by
  simp only [validateIdentityProfileConfig, seq_eq_ok, ensure_eq_ok, forEach_eq_ok,
    not_eq_true', bne_iff_ne]
  constructor <;> rintro ⟨hp, hs, hl, hr, hm⟩ <;> exact ⟨hp, hs, hl, hr, hm⟩

end Specification

section Agreement

variable {key : String}

theorem exists_of_configString (h : configString config key ≠ "") :
    ∃ s, (key, .string s) ∈ config ∧ configString config key = trimSpace s := by
  unfold configString at h ⊢
  split at h
  next k s hfind =>
    have hk : k = key := by simpa using List.find?_some hfind
    subst hk
    exact ⟨s, mem_of_find?_eq_some hfind, rfl⟩
  · exact absurd rfl h

theorem configString_of_ne {k : String} {v : Json} (hne : k ≠ key) :
    configString ((k, v) :: config) key = configString config key := by
  simp [configString, hne]

theorem secret_of_mem {v : Json} (hmem : (key, v) ∈ config) (hkey : secretKey key = true) :
    membersContainSecret config = true := by
  induction config with
  | nil => cases hmem
  | cons m ms ih =>
    rcases mem_cons.mp hmem with heq | hmem
    · cases heq
      simp [membersContainSecret, hkey]
    · simp [membersContainSecret, ih hmem]

theorem not_valid_oidc : ¬ Valid parseURL platform .linuxSssdOidc config := by
  intro h
  obtain ⟨s, hmem, -⟩ := exists_of_configString (h.required "token_endpoint" (by decide))
  have hsecret := secret_of_mem hmem (by decide +kernel)
  have hfree := h.secret
  rw [containsInlineSecret, hsecret] at hfree
  cases hfree

structure ReconcileRequest.Usable (r : ReconcileRequest) : Prop where
  username : directoryPrincipalPattern r.joinUsername = true
  password : r.joinPassword ≠ ""
  secret : r.clientSecret ≠ ""

theorem ready_of_valid (h : Valid parseURL p.platform p.mode p.config) (hr : r.Usable) :
    Ready parseURL p r := by
  obtain ⟨_, platform, mode, _, config⟩ := p
  have hmode := h.mode
  have hrequired := h.required
  dsimp only at hmode hrequired
  cases mode with
  | managedLocal => trivial
  | linuxSssdAd =>
    simp only [validateMode, ensure_eq_ok, and_eq_true] at hmode
    exact ⟨⟨hmode.1.1, hmode.1.2, hr.username, hr.password⟩, hmode.2⟩
  | linuxSssdFreeipa =>
    simp only [validateMode, ensure_eq_ok, and_eq_true] at hmode
    exact ⟨hmode.1.1, hmode.1.2, hmode.2, hr.username, hr.password⟩
  | linuxSssdLdap =>
    simp only [validateMode, ensure_eq_ok, and_eq_true] at hmode
    exact ⟨hmode.1, hmode.2, hrequired _ (by decide), hrequired _ (by decide)⟩
  | linuxSssdOidc => exact absurd h not_valid_oidc
  | windowsAd =>
    simp only [validateMode, ensure_eq_ok, and_eq_true, beq_iff_eq, not_eq_true']
      at hmode
    exact ⟨hmode.1.1, hmode.1.2, hr.username, hr.password, hrequired _ (by decide),
      by simp [hmode.2]⟩
  | windowsEntra =>
    simp only [validateMode, ensure_eq_ok, and_eq_true] at hmode
    exact ⟨hmode.2, hmode.1.2, hmode.1.1⟩

theorem ne_empty_of {f : String → Bool} {s : String} (h : f s = true) (hempty : f "" = false) :
    s ≠ "" := by
  rintro rfl
  rw [hempty] at h
  cases h

theorem valid_of_ready (hempty : parseURL "" = some ⟨"", ""⟩) (h : Ready parseURL p r)
    (hplatform : p.mode.platform.all (· == p.platform) = true)
    (hsecret : containsInlineSecret (.object p.config) = false)
    (hline : containsMultilineConfigValue (.object p.config) = false) :
    Valid parseURL p.platform p.mode p.config := by
  obtain ⟨_, platform, mode, _, config⟩ := p
  suffices h : (∀ key ∈ mode.required, configString config key ≠ "") ∧
      validateMode parseURL mode config = .ok () from ⟨hplatform, hsecret, hline, h.1, h.2⟩
  cases mode with
  | managedLocal => exact ⟨by simp [Mode.required], rfl⟩
  | linuxSssdAd =>
    obtain ⟨⟨hdomain, hrealm, -, -⟩, hgroups⟩ := h
    simp only [Mode.required, forall_mem_cons, validateMode, ensure_eq_ok, and_eq_true]
    exact ⟨⟨ne_empty_of hdomain (by decide), ne_empty_of hrealm (by decide),
      ne_empty_of hgroups (by decide), by simp⟩, ⟨hdomain, hrealm⟩, hgroups⟩
  | linuxSssdFreeipa =>
    obtain ⟨hdomain, hserver, hrealm, -, -⟩ := h
    simp only [Mode.required, forall_mem_cons, validateMode, ensure_eq_ok, and_eq_true]
    exact ⟨⟨ne_empty_of hdomain (by decide), ne_empty_of hserver (by decide),
      ne_empty_of hrealm (by decide), by simp⟩, ⟨hdomain, hserver⟩, hrealm⟩
  | linuxSssdLdap =>
    obtain ⟨hdomain, huri, hbase, hfilter⟩ := h
    simp only [Mode.required, forall_mem_cons, validateMode, ensure_eq_ok, and_eq_true]
    exact ⟨⟨ne_empty_of hdomain (by decide),
      ne_empty_of (f := ldapURL parseURL) huri (by simp [ldapURL, hempty]), hbase, hfilter,
      by simp⟩, hdomain, huri⟩
  | linuxSssdOidc =>
    -- the planner needs the endpoint with the name of a secret too
    have hurl : httpsURL parseURL (configString config "token_endpoint") = true :=
      h.2 _ (by decide)
    have hne := ne_empty_of hurl (by simp [httpsURL, hempty])
    obtain ⟨s, hmem, -⟩ := exists_of_configString hne
    have hcontains := secret_of_mem hmem (by decide +kernel)
    rw [containsInlineSecret, hcontains] at hsecret
    cases hsecret
  | windowsAd =>
    obtain ⟨hjoin, hdomain, -, -, hgroup, hchars⟩ := h
    simp only [Mode.required, forall_mem_cons, validateMode, ensure_eq_ok, and_eq_true,
      beq_iff_eq, not_eq_true']
    exact ⟨⟨ne_empty_of hdomain (by decide), by simp only [hjoin]; decide, hgroup, by simp⟩,
      ⟨hjoin, hdomain⟩, by simpa using hchars⟩
  | windowsEntra =>
    obtain ⟨hprincipal, hhost, htenant⟩ := h
    simp only [Mode.required, forall_mem_cons, validateMode, ensure_eq_ok, and_eq_true]
    exact ⟨⟨ne_empty_of htenant (by decide), ne_empty_of hhost (by decide),
      ne_empty_of hprincipal (by decide), by simp⟩, ⟨htenant, hhost⟩, hprincipal⟩

def sampleConfig (uri : String) : Mode → Config
  | .managedLocal => []
  | .linuxSssdAd =>
    [("domain", .string "corp.test"), ("realm", .string "CORP.TEST"),
      ("allowed_groups", .string "desktop-users")]
  | .linuxSssdFreeipa =>
    [("domain", .string "corp.test"), ("server", .string "ipa.corp.test"),
      ("realm", .string "CORP.TEST")]
  | .linuxSssdLdap =>
    [("uri", .string uri), ("domain", .string "corp.test"),
      ("search_base", .string "dc=corp,dc=test"), ("access_filter", .string "(uid=*)")]
  | .linuxSssdOidc =>
    [("domain", .string "corp.test"), ("idp_type", .string "entra_id"),
      ("client_id", .string "desktop"), ("token_endpoint", .string uri),
      ("userinfo_endpoint", .string uri), ("device_auth_endpoint", .string uri),
      ("id_scope", .string "openid")]
  | .windowsAd =>
    [("domain", .string "corp.test"), ("join_method", .string "online"),
      ("allowed_group", .string "CORP\\Desktop Users")]
  | .windowsEntra =>
    [("tenant_id", .string "00000000-0000-0000-0000-000000000000"),
      ("target_hostname", .string "desktop.corp.test"), ("allowed_principal", .string "user@corp")]

structure LdapAddress (parseURL : String → Option URL) (uri : String) : Prop where
  accepted : ldapURL parseURL uri = true
  trimmed : trimSpace uri = uri
  singleLine : containsAny uri ['\r', '\n'] = false
  ne_empty : uri ≠ ""

theorem valid_sample {uri : String} (huri : LdapAddress parseURL uri)
    (hplatform : mode.platform.all (· == platform) = true) (hmode : mode ≠ .linuxSssdOidc) :
    Valid parseURL platform mode (sampleConfig uri mode) := by
  cases mode with
  | linuxSssdOidc => exact absurd rfl hmode
  | linuxSssdLdap =>
    have hdomain : configString (sampleConfig uri .linuxSssdLdap) "domain" = "corp.test" := by
      simp only [sampleConfig, configString_of_ne (show "uri" ≠ "domain" by decide)]
      decide
    have hbase : configString (sampleConfig uri .linuxSssdLdap) "search_base" =
        "dc=corp,dc=test" := by
      simp only [sampleConfig, configString_of_ne (show "uri" ≠ "search_base" by decide)]
      decide
    have hfilter : configString (sampleConfig uri .linuxSssdLdap) "access_filter" = "(uid=*)" := by
      simp only [sampleConfig, configString_of_ne (show "uri" ≠ "access_filter" by decide)]
      decide
    have hvalue : configString (sampleConfig uri .linuxSssdLdap) "uri" = uri := huri.trimmed
    refine ⟨hplatform, ?_, ?_, ?_, ?_⟩
    · simp only [sampleConfig, containsInlineSecret, membersContainSecret]
      decide +kernel
    · simp only [sampleConfig, containsMultilineConfigValue, membersContainMultiline,
        huri.singleLine]
      decide
    · simp only [Mode.required, forall_mem_cons, hdomain, hvalue, hbase, hfilter]
      exact ⟨by decide, huri.ne_empty, by decide, by decide, by simp⟩
    · simp only [validateMode, ensure_eq_ok, and_eq_true, hvalue, hdomain]
      exact ⟨by decide, huri.accepted⟩
  | managedLocal =>
    exact ⟨hplatform, rfl, rfl, by simp [Mode.required], rfl⟩
  | linuxSssdAd | linuxSssdFreeipa | windowsAd | windowsEntra =>
    simp only [sampleConfig]
    exact ⟨hplatform, by decide +kernel, by decide +kernel, by decide +kernel,
      by simp only [validateMode]; decide +kernel⟩

/-- The modes with configurations that the validator takes are all but the OIDC mode. What it takes
can be planned, and a configuration that passes its general checks is taken if it can be planned. -/
theorem validator_planner_agree {uri : String} (huri : LdapAddress parseURL uri)
    (hempty : parseURL "" = some ⟨"", ""⟩) :
    (∀ mode platform, mode.platform.all (· == platform) = true →
        ((∃ config, validateIdentityProfileConfig parseURL platform mode config = .ok ()) ↔
          mode ≠ .linuxSssdOidc)) ∧
      (∀ p : Profile, validateIdentityProfileConfig parseURL p.platform p.mode p.config = .ok () →
        ∃ r : ReconcileRequest, r.Usable ∧
          ∃ plan, buildGuestIdentityReconcilePlan parseURL p r = .ok plan) ∧
      ∀ p : Profile, p.mode.platform.all (· == p.platform) = true →
        containsInlineSecret (.object p.config) = false →
        containsMultilineConfigValue (.object p.config) = false →
        (validateIdentityProfileConfig parseURL p.platform p.mode p.config = .ok () ↔
          ∃ r plan, buildGuestIdentityReconcilePlan parseURL p r = .ok plan) := by
  have hplanned : ∀ p : Profile,
      validateIdentityProfileConfig parseURL p.platform p.mode p.config = .ok () →
        ∃ r : ReconcileRequest, r.Usable ∧
          ∃ plan, buildGuestIdentityReconcilePlan parseURL p r = .ok plan := by
    intro p hvalid
    have husable : (⟨"join", "once", "once"⟩ : ReconcileRequest).Usable :=
      ⟨by decide, by decide, by decide⟩
    exact ⟨_, husable, _, build_eq_ok.mpr ⟨ready_of_valid (validate_eq_ok.mp hvalid) husable, rfl⟩⟩
  refine ⟨fun mode platform hplatform => ⟨?_, fun hmode => ?_⟩, hplanned,
    fun p hplatform hsecret hline => ⟨fun hvalid => ?_, ?_⟩⟩
  · rintro ⟨config, hvalid⟩ rfl
    exact not_valid_oidc (validate_eq_ok.mp hvalid)
  · exact ⟨sampleConfig uri mode, validate_eq_ok.mpr (valid_sample huri hplatform hmode)⟩
  · obtain ⟨r, -, plan, hplan⟩ := hplanned p hvalid
    exact ⟨r, plan, hplan⟩
  · rintro ⟨r, plan, hplan⟩
    exact validate_eq_ok.mpr
      (valid_of_ready hempty (build_eq_ok.mp hplan).1 hplatform hsecret hline)

def twoAddresses (s : String) : Option URL :=
  if s = "ldaps://ldap.corp.test" then some ⟨"ldaps", "ldap.corp.test"⟩
  else if s = "https://id.corp.test" then some ⟨"https", "id.corp.test"⟩
  else some ⟨"", ""⟩

theorem validator_planner_agree_two :
    ∃ config, validateIdentityProfileConfig twoAddresses .linux .linuxSssdLdap config = .ok () :=
  have huri : LdapAddress twoAddresses "ldaps://ldap.corp.test" :=
    ⟨by decide, by decide, by decide, by decide⟩
  ((validator_planner_agree huri (by decide)).1 _ _ (by decide)).mpr (by decide)

/-- No configuration of the OIDC mode is taken: the field of its token endpoint has the name of a
secret. -/
theorem oidc_mode_is_unusable : (∀ parseURL platform config,
        validateIdentityProfileConfig parseURL platform .linuxSssdOidc config ≠ .ok ()) ∧
      ∃ plan, buildGuestIdentityReconcilePlan twoAddresses
        ⟨"staff", .linux, .linuxSssdOidc, true, sampleConfig "https://id.corp.test" .linuxSssdOidc⟩
        ⟨"", "", "once"⟩ = .ok plan := by
  refine ⟨fun parseURL platform config h => not_valid_oidc (validate_eq_ok.mp h), _,
    build_eq_ok.mpr ⟨?_, rfl⟩⟩
  simp only [Ready]
  decide +kernel

end Agreement

end VcWorkspace.Server.IdentityProfile
