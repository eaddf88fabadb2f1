import DdnsIpv6.Error
import DdnsIpv6.Lib.Ipv6.Text
import Mathlib.Algebra.Group.Int.Defs

/-!
# `config`: from a TOML document to a validated configuration

The text parser is outside: it turns a text into a tree of values (`Toml`). What serde's derived deserializers read from
that tree, `validate` and `load` are here. A struct is read from a table by its field names, or from an array by
position; a key that it does not have is ignored, unless the struct denies unknown fields.
-/

namespace DdnsIpv6

open Lib

/-- A TOML value. -/
inductive Toml where
  | string (s : String)
  | integer (i : Int)
  | float (text : String)
  | boolean (b : Bool)
  | datetime (text : String)
  | array (vs : List Toml)
  | table (kvs : List (String × Toml))

/-! ## Secrets -/

/-- A string that may be read from an environment variable. -/
structure Secret where
  value : String
  deriving DecidableEq, Repr

/-- Resolve the `env:VAR` form by the variables of the process. -/
def resolveEnv (env : String → Option String) (value : String) : Except ConfigError Secret :=
  match value.toList with
  | 'e' :: 'n' :: 'v' :: ':' :: var =>
    match env (String.ofList var) with
    | some val => .ok ⟨val⟩
    | none => .error (.envNotSet (String.ofList var))
  | _ => .ok ⟨value⟩

/-! ## The types of the configuration -/

inductive PrefixConfig where
  | dns (referenceDomain : String)
  | netlink (interface : String)
  | ra (interface : String)
  deriving DecidableEq, Repr

structure HostEntry where
  suffix : Ipv6Addr
  domain : String
  deriving DecidableEq, Repr

structure DockerConfig where
  socketPath : String
  deriving DecidableEq, Repr

inductive ProviderConfig where
  | cloudflare (zoneId apiToken : String)
  | rfc2136 (server keyName keyAlgorithm keySecret : String)
  deriving DecidableEq, Repr

def defaultInterval : UInt64 := 300

def defaultSocketPath : String := "/var/run/docker.sock"

inductive RawPrefix where
  | dns (referenceDomain : String)
  | netlink (interface : String)
  | ra (interface : String)
  deriving DecidableEq, Repr

inductive RawDns where
  | cloudflare (zoneId apiToken : String)
  | rfc2136 (server keyName keyAlgorithm keySecret : String)
  deriving DecidableEq, Repr

structure RawDocker where
  enabled : Bool
  socketPath : String
  deriving DecidableEq, Repr

structure RawConfig where
  pfx : RawPrefix
  dns : RawDns
  hosts : List HostEntry
  intervalSecs : UInt64
  docker : Option RawDocker
  deriving DecidableEq, Repr

structure ValidatedConfig where
  pfx : PrefixConfig
  dns : ProviderConfig
  hosts : List HostEntry
  intervalSecs : UInt64
  docker : Option DockerConfig
  deriving DecidableEq, Repr

/-! ## Deserializers -/

/-- What the field `name`, the `i`-th of its struct, is read from. -/
def Toml.field (v : Toml) (i : Nat) (name : String) : Except TomlError (Option Toml) :=
  match v with
  | .table kvs => .ok (kvs.lookup name)
  | .array vs => .ok vs[i]?
  | _ => .error (.invalidType "struct")

/-- A field without a default. -/
def Toml.required {α : Type} (v : Toml) (i : Nat) (name : String) (de : Toml → Except TomlError α) :
    Except TomlError α := do
  match ← v.field i name with
  | some x => de x
  | none => .error (.missingField name)

/-- A field with a default. -/
def Toml.orDefault {α : Type} (v : Toml) (i : Nat) (name : String) (default : α) (de : Toml → Except TomlError α) :
    Except TomlError α := do
  match ← v.field i name with
  | some x => de x
  | none => .ok default

def deString : Toml → Except TomlError String
  | .string s => .ok s
  | _ => .error (.invalidType "a string")

def deBool : Toml → Except TomlError Bool
  | .boolean b => .ok b
  | _ => .error (.invalidType "a boolean")

def deU64 : Toml → Except TomlError UInt64
  | .integer i => if 0 ≤ i ∧ i < 2 ^ 64 then .ok (UInt64.ofNat i.toNat) else .error (.invalidType "u64")
  | _ => .error (.invalidType "u64")

def deList {α : Type} (de : Toml → Except TomlError α) : Toml → Except TomlError (List α)
  | .array vs => vs.mapM de
  | _ => .error (.invalidType "a sequence")

/-- A suffix is any text that parses as an address. -/
def ipv6addrFromStr (v : Toml) : Except TomlError Ipv6Addr := do
  let s ← deString v
  match Ipv6Addr.fromStr s with
  | some a => .ok a
  | none => .error (.custom ("invalid suffix '" ++ s ++ "': invalid IPv6 address syntax"))

def deHostEntry (v : Toml) : Except TomlError HostEntry := do
  let suffix ← v.required 0 "suffix" ipv6addrFromStr
  let domain ← v.required 1 "domain" deString
  .ok ⟨suffix, domain⟩

/-- An internally tagged enum: its tag, and the content that is left for the variant. From an array the variant has to
take the whole content. -/
def splitTag (tag : String) : Toml → Except TomlError (String × Toml)
  | .table kvs => do
    match kvs.lookup tag with
    | some t => .ok (← deString t, .table (kvs.filter fun kv => kv.1 ≠ tag))
    | none => .error (.missingField tag)
  | .array (t :: vs) => do .ok (← deString t, .array vs)
  | .array [] => .error (.missingField tag)
  | _ => .error (.invalidType "internally tagged enum")

/-- What is left of an array when a variant has taken `n` elements is an error. -/
def Toml.exhausted (v : Toml) (n : Nat) : Except TomlError Unit :=
  match v with
  | .array vs => if n < vs.length then .error (.invalidType "fewer elements") else .ok ()
  | _ => .ok ()

def deRawPrefix (v : Toml) : Except TomlError RawPrefix := do
  match ← splitTag "method" v with
  | ("dns", content) => do
    let referenceDomain ← content.required 0 "reference_domain" deString
    content.exhausted 1
    .ok (.dns referenceDomain)
  | ("netlink", content) => do
    let interface ← content.required 0 "interface" deString
    content.exhausted 1
    .ok (.netlink interface)
  | ("ra", content) => do
    let interface ← content.required 0 "interface" deString
    content.exhausted 1
    .ok (.ra interface)
  | (method, _) => .error (.unknownVariant method)

def deRawDns (v : Toml) : Except TomlError RawDns := do
  match ← splitTag "provider" v with
  | ("cloudflare", content) => do
    let zoneId ← content.required 0 "zone_id" deString
    let apiToken ← content.required 1 "api_token" deString
    content.exhausted 2
    .ok (.cloudflare zoneId apiToken)
  | ("rfc2136", content) => do
    let server ← content.required 0 "server" deString
    let keyName ← content.required 1 "key_name" deString
    let keyAlgorithm ← content.required 2 "key_algorithm" deString
    let keySecret ← content.required 3 "key_secret" deString
    content.exhausted 4
    .ok (.rfc2136 server keyName keyAlgorithm keySecret)
  | (provider, _) => .error (.unknownVariant provider)

def deRawDocker (v : Toml) : Except TomlError RawDocker := do
  let enabled ← v.orDefault 0 "enabled" false deBool
  let socketPath ← v.orDefault 1 "socket_path" defaultSocketPath deString
  .ok ⟨enabled, socketPath⟩

/-- `RawConfig` denies unknown fields. -/
def deRawConfig (doc : List (String × Toml)) : Except TomlError RawConfig := do
  match doc.find? fun kv => kv.1 ∉ ["prefix", "dns", "hosts", "interval_secs", "docker"] with
  | some kv => .error (.unknownField kv.1)
  | none =>
    let v := Toml.table doc
    let pfx ← v.required 0 "prefix" deRawPrefix
    let dns ← v.required 1 "dns" deRawDns
    let hosts ← v.orDefault 2 "hosts" [] (deList deHostEntry)
    let intervalSecs ← v.orDefault 3 "interval_secs" defaultInterval deU64
    let docker ← v.orDefault 4 "docker" none fun x => some <$> deRawDocker x
    .ok ⟨pfx, dns, hosts, intervalSecs, docker⟩

/-! ## Validation -/

def validatePrefix : RawPrefix → PrefixConfig
  | .dns referenceDomain => .dns referenceDomain
  | .netlink interface => .netlink interface
  | .ra interface => .ra interface

def validateDns (env : String → Option String) : RawDns → Except ConfigError ProviderConfig
  | .cloudflare zoneId apiToken => do
    let resolved ← resolveEnv env apiToken
    .ok (.cloudflare zoneId resolved.value)
  | .rfc2136 server keyName keyAlgorithm keySecret => do
    if keyAlgorithm ≠ "hmac-sha256" ∧ keyAlgorithm ≠ "hmac-sha512" then .error (.unknownAlgorithm keyAlgorithm)
    let resolved ← resolveEnv env keySecret
    .ok (.rfc2136 server keyName keyAlgorithm resolved.value)

def validate (env : String → Option String) (raw : RawConfig) : Except ConfigError ValidatedConfig := do
  let pfx := validatePrefix raw.pfx
  let dns ← validateDns env raw.dns
  let docker := (raw.docker.filter RawDocker.enabled).map fun d => ⟨d.socketPath⟩
  if raw.hosts.isEmpty ∧ docker.isNone then .error .emptyHosts
  .ok ⟨pfx, dns, raw.hosts, raw.intervalSecs, docker⟩

/-- Load a configuration file: `contents` is what reading the file gives, `parse` the TOML parser. -/
def ValidatedConfig.load (parse : String → Except String (List (String × Toml))) (env : String → Option String)
    (contents : Except String String) : Except ConfigError ValidatedConfig :=
  match contents with
  | .error e => .error (.io e)
  | .ok text =>
    match parse text with
    | .error e => .error (.parse (.syntaxError e))
    | .ok doc =>
      match deRawConfig doc with
      | .error e => .error (.parse e)
      | .ok raw => validate env raw

/-- A validated configuration has the hosts and the interval of the document as they are. -/
theorem validate_kept {env : String → Option String} {raw : RawConfig} {cfg : ValidatedConfig}
    (h : validate env raw = .ok cfg) : cfg.hosts = raw.hosts ∧ cfg.intervalSecs = raw.intervalSecs := by
  simp only [validate, bind, Except.bind] at h
  split at h
  · cases h
  · split at h
    · cases h
    · cases h
      exact ⟨rfl, rfl⟩

end DdnsIpv6
