/-!
# Errors

`ConfigError` and `Error`. An error of a library below (a transport, a parser, the system) is the text it displays.
-/

namespace DdnsIpv6

/-- An error of the TOML parser or of a deserializer. -/
inductive TomlError where
  | syntaxError (e : String)
  | missingField (field : String)
  | unknownField (field : String)
  | unknownVariant (variant : String)
  | invalidType (expected : String)
  | custom (msg : String)
  deriving DecidableEq, Repr

inductive ConfigError where
  | io (e : String)
  | parse (e : TomlError)
  | missingField (field : String)
  | envNotSet (var : String)
  | emptyHosts
  | invalidSuffix (suffix e : String)
  | unknownAlgorithm (algorithm : String)
  deriving DecidableEq, Repr

/-- The boxed source of `Error::Update`. -/
inductive UpdateSource where
  /-- An error of the HTTP client, of the JSON parser or of the DNS client. -/
  | client (e : String)
  /-- `HTTP {status}: {body_text}` -/
  | http (status : Nat) (bodyText : String)
  /-- `{label}: {errors:?}` -/
  | api (label : String) (errors : List String)
  /-- `invalid AAAA in Cloudflare response '{content}': {e}` -/
  | invalidAaaa (content : String)
  deriving DecidableEq, Repr

inductive Error where
  | config (e : ConfigError)
  | prefixDetection (msg : String)
  | update (domain : String) (source : UpdateSource)
  | io (e : String)
  | other (e : String)
  deriving DecidableEq, Repr

end DdnsIpv6
