import Guangyang.Routes
import Guangyang.Excelcmp.Load
/-!
# KeyFile — the WeChat Pay settings read from key files

With no environment variable set, the `wechat` package reads its settings from
`wechatpay/apikey/apikey.txt` and three fallbacks, one `KEY=VALUE` or `KEY: VALUE` line each
(`parseKeyFromText`, `inferFromApikeyFile`).  `readWechatPlatformPublicKeyPEM` then tries the mounted
`.pem` files.

`parseKeyFromText` takes the first nonblank line that merely starts with the key name, where the
files are written for the first line whose key token is the name (`exactKeyValue`).  The same file is
meant to hold `WECHAT_PLATFORM_PUBLIC_KEY_ID`, and that line starts with `WECHAT_PLATFORM_PUBLIC_KEY`.
Its tail `_ID=…` is read as the public key, ahead of a later key line and of a mounted `pub_key.pem`
(`publicKeyPEM_reads_id_line`).
-/
namespace Guangyang.Wechat

/-! ## Key lines -/

/-- `strings.Split(text, "\n")`. -/
def keyFileLines (text : String) : List String :=
  (text.data.splitOn '\n').map String.mk

/-- What `parseKeyFromText` returns for a matching line: `strings.TrimPrefix` of the key, of `=` and of
`:`, each followed by `strings.TrimSpace`. -/
def keyValue (l keyName : String) : String :=
  let rest := trimSpace ⟨cutHead keyName.data l.data⟩
  let rest := trimSpace ⟨cutHead ['='] rest.data⟩
  let rest := trimSpace ⟨cutHead [':'] rest.data⟩
  trimSpace rest

/-- The loop of `parseKeyFromText`: the first nonblank trimmed line that starts with the key name
(`strings.HasPrefix`). -/
def parseKeyLines (keyName : String) : List String → String
  | [] => ""
  | line :: lines =>
    let l := trimSpace line
    if l = "" then parseKeyLines keyName lines
    else if keyName.data.isPrefixOf l.data then keyValue l keyName
    else parseKeyLines keyName lines

/-- `parseKeyFromText`. -/
def parseKeyFromText (text keyName : String) : String :=
  parseKeyLines keyName (keyFileLines text)

/-- The key token of a line is exactly the key name: the line is the name, alone or followed by `=`,
`:` or white space. -/
def hasKeyToken (keyName l : String) : Bool :=
  keyName.data.isPrefixOf l.data &&
    match l.data.drop keyName.length with
    | [] => true
    | c :: _ => c == '=' || c == ':' || isSpace c

/-- The reading the key files are written for: the value of the first line whose key token is exactly
the name. -/
def exactKeyValue (text keyName : String) : String :=
  match ((keyFileLines text).map trimSpace).find? (hasKeyToken keyName) with
  | some l => keyValue l keyName
  | none => ""

example : parseKeyFromText "WECHAT_API_V3_KEY = abc\nWECHAT_MCHID: 1106035691" "WECHAT_API_V3_KEY" = "abc" := by
  decide

/-! ## Key files -/

/-- The loops of `inferFromApikeyFile` and `readWechatPlatformPublicKeyPEM`: the first path that reads
(`os.ReadFile`; `none` is an error) and whose text gives a nonempty value. -/
def firstFileValue (readFile : String → Option String) (value : String → String) : List String → String
  | [] => ""
  | p :: ps =>
    match readFile p with
    | some b => if value b ≠ "" then value b else firstFileValue readFile value ps
    | none => firstFileValue readFile value ps

/-- The key files of `inferFromApikeyFile`, in order. -/
def apikeyCandidates : List String :=
  ["wechatpay/apikey/apikey.txt", "../wechatpay/apikey/apikey.txt",
    "wechatpay/apikey/key.txt", "../wechatpay/apikey/key.txt"]

/-- `inferFromApikeyFile`. -/
def inferFromApikeyFile (readFile : String → Option String) (keyName : String) : String :=
  firstFileValue readFile (fun b => parseKeyFromText b keyName) apikeyCandidates

/-- The mounted key files of `readWechatPlatformPublicKeyPEM`, in order; `certCacheDir` is
`wechatpayCertCacheDir()`. -/
def publicKeyPemPaths (certCacheDir : String) : List String :=
  ["wechatpay/cert/platform_public_key.pem", "wechatpay/cert/pub_key.pem",
    "../wechatpay/cert/platform_public_key.pem", "../wechatpay/cert/pub_key.pem",
    certCacheDir ++ "/platform_public_key.pem", certCacheDir ++ "/pub_key.pem"]

/-- `readWechatPlatformPublicKeyPEM`: the variable, unless it is blank or shorter than 200 bytes with
the BEGIN and END lines, then the key files, then the mounted PEM files. -/
def readWechatPlatformPublicKeyPEM (getenv : String → String) (readFile : String → Option String)
    (certCacheDir : String) : String :=
  let v := trimSpace (getenv "WECHAT_PLATFORM_PUBLIC_KEY")
  if v ≠ "" ∧ ¬ (v.utf8ByteSize < 200 ∧ Excelcmp.stringsContains v "BEGIN PUBLIC KEY" = true ∧
      Excelcmp.stringsContains v "END PUBLIC KEY" = true) then v
  else
    let v := inferFromApikeyFile readFile "WECHAT_PLATFORM_PUBLIC_KEY"
    if v ≠ "" then v else firstFileValue readFile trimSpace (publicKeyPemPaths certCacheDir)

/-- A `WECHAT_PLATFORM_PUBLIC_KEY_ID` line is read as the public key: ahead of the key's own line,
and, with no variable set, ahead of a mounted `pub_key.pem`. -/
theorem publicKeyPEM_reads_id_line :
    parseKeyFromText "WECHAT_PLATFORM_PUBLIC_KEY_ID=PUB_KEY_ID_123\nWECHAT_PLATFORM_PUBLIC_KEY=MIIBIjAN"
      "WECHAT_PLATFORM_PUBLIC_KEY" = "_ID=PUB_KEY_ID_123" ∧
    exactKeyValue "WECHAT_PLATFORM_PUBLIC_KEY_ID=PUB_KEY_ID_123\nWECHAT_PLATFORM_PUBLIC_KEY=MIIBIjAN"
      "WECHAT_PLATFORM_PUBLIC_KEY" = "MIIBIjAN" ∧
    readWechatPlatformPublicKeyPEM (fun _ => "")
      (fun p => if p = "wechatpay/apikey/apikey.txt" then
          some "WECHAT_API_V3_KEY=abc\nWECHAT_PLATFORM_PUBLIC_KEY_ID=PUB_KEY_ID_123"
        else if p = "wechatpay/cert/pub_key.pem" then
          some "-----BEGIN PUBLIC KEY-----\nMIIBIjAN\n-----END PUBLIC KEY-----"
        else none)
      "tmp/wechatpay_cache/cert" = "_ID=PUB_KEY_ID_123" := by
  decide

end Guangyang.Wechat
