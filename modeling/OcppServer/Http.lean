import OcppServer.Lib.Delimited
import OcppServer.WebServer

/-!
# The static HTTP service

`callback_http` searches five paths for a file (`serveStaticFile`) and falls back on a page of its
own (`generateDefaultResponse`). `readFile` answers with the empty string for every failure, and an
exception out of its buffer's allocation ends the callback (`none`). A `HttpCall` keeps what the
callback did: the paths it read and what it handed to `lws_write`.
-/

namespace OcppServer

/-- What a path names for `std::ifstream`: a file, or something else that opens, like a directory;
that has a size for `tellg`, but nothing of it can be read. -/
inductive DiskEntry where
  | file (content : Bytes)
  | directory (size : ℤ)

/-- The file system during one callback, and the largest buffer that can be allocated. -/
structure Disk where
  entry? : Bytes → Option DiskEntry
  room : ℕ

def DiskEntry.size : DiskEntry → ℤ
  | file content => content.length
  | directory size => size

structure HttpCall where
  reads : List Bytes := []
  written : List Bytes := []

/-- `readFile`; `none` where the buffer of the file's size cannot be allocated. -/
def readFile (disk : Disk) (filePath : Bytes) : Option Bytes :=
  match disk.entry? filePath with
  | none => some []
  | some entry =>
    if entry.size ≤ 0 then some []
    else if disk.room < entry.size then none
    else
      match entry with
      | .file content => some content
      | .directory _ => some []

/-- The call to `readFile`, noted. -/
def HttpCall.read (filePath : Bytes) (call : HttpCall) : HttpCall :=
  { call with reads := call.reads ++ [filePath] }

@[simp] theorem HttpCall.written_read (filePath : Bytes) (call : HttpCall) :
    (call.read filePath).written = call.written := rfl

/-- `::tolower` of the C locale. -/
def tolower (c : UInt8) : UInt8 := if 65 ≤ c.toNat ∧ c.toNat ≤ 90 then c + 32 else c

def mimeTypes : List (Bytes × Bytes) :=
  [(lit "html", lit "text/html"), (lit "htm", lit "text/html"), (lit "css", lit "text/css"),
    (lit "js", lit "application/javascript"), (lit "json", lit "application/json"),
    (lit "png", lit "image/png"), (lit "jpg", lit "image/jpeg"), (lit "jpeg", lit "image/jpeg"),
    (lit "gif", lit "image/gif"), (lit "svg", lit "image/svg+xml"),
    (lit "ico", lit "image/x-icon"), (lit "txt", lit "text/plain")]

/-- `find_last_of(".") + 1` is 0 where there is no dot. -/
def getMimeType (filePath : Bytes) : Bytes :=
  let extension := (Delimited.afterLast? '.'.toUInt8 filePath).getD filePath
  (mimeTypes.lookup (extension.map tolower)).getD (lit "text/plain")

def statusText (statusCode : ℤ) : Bytes :=
  if statusCode = 404 then lit "Not Found"
  else if statusCode = 400 then lit "Bad Request"
  else if statusCode = 500 then lit "Internal Server Error"
  else lit "OK"

def sendHttpResponse (content : Bytes) (statusCode : ℤ) (mimeType : Bytes) (call : HttpCall) :
    HttpCall :=
  let headers :=
    lit "HTTP/1.1 " ++ decimal statusCode ++ lit " " ++ statusText statusCode ++ lit "\r\n" ++
    lit "Content-Type: " ++ mimeType ++ lit "\r\n" ++
    lit "Content-Length: " ++ decimal content.length ++ lit "\r\n" ++
    lit "Connection: close\r\n" ++
    lit "Server: cs-web-server\r\n" ++
    lit "\r\n"
  { call with written := call.written ++ [headers ++ content] }

/-- The path under `web`, with the index file of a directory. -/
def staticFilePath (uri : Bytes) : Bytes :=
  let filePath := lit "web" ++ uri
  if filePath.getLast? = some '/'.toUInt8 then filePath ++ lit "index.html" else filePath

def pathPrefixes : List Bytes := [[], lit "../", lit "../../", lit "app/", lit "../app/"]

def pathsToTry (filePath : Bytes) : List Bytes := pathPrefixes.map (· ++ filePath)

/-- The loop over the paths. -/
def tryPaths (disk : Disk) : List Bytes → HttpCall → Option Bool × HttpCall
  | [], call => (some false, call)
  | path :: paths, call =>
    match readFile disk path with
    | none => (none, call.read path)
    | some content =>
      if content ≠ [] then
        (some true, sendHttpResponse content 200 (getMimeType path) (call.read path))
      else tryPaths disk paths (call.read path)

def serveStaticFile (disk : Disk) (uri : Bytes) (call : HttpCall) : Option Bool × HttpCall :=
  let filePath := staticFilePath uri
  if lit ".." <:+: filePath then (some false, call)
  else tryPaths disk (pathsToTry filePath) call

def fallbackPage : Bytes :=
  lit "<!DOCTYPE html>\n" ++
  lit "            <html>\n" ++
  lit "            <head>\n" ++
  lit "                <title>OS Web Server - Fallback</title>\n" ++
  lit "                <style>\n" ++
  lit "                    body \x7b font-family: Arial, sans-serif; margin: 40px; \x7d\n" ++
  lit "                    .container \x7b max-width: 800px; margin: 0 auto; \x7d\n" ++
  lit "                </style>\n" ++
  lit "            </head>\n" ++
  lit "            <body>\n" ++
  lit "                <div class=\"container\">\n" ++
  lit "                    <h1>OS Web Server - Fallback Mode</h1>\n" ++
  lit "                    <p>Static files not found. Running in fallback mode.</p>\n" ++
  lit "                    <p>Please check that the 'web/' directory exists with static files.</p>\n" ++
  lit "                </div>\n" ++
  lit "            </body>\n" ++
  lit "            </html>"

def notFoundPage : Bytes :=
  lit "<!DOCTYPE html>\n" ++
  lit "            <html>\n" ++
  lit "            <head>\n" ++
  lit "                <title>404 Not Found</title>\n" ++
  lit "                <style>\n" ++
  lit "                    body \x7b font-family: Arial, sans-serif; margin: 40px; \x7d\n" ++
  lit "                    h1 \x7b color: #d32f2f; \x7d\n" ++
  lit "                </style>\n" ++
  lit "            </head>\n" ++
  lit "            <body>\n" ++
  lit "                <h1>404 Not Found</h1>\n" ++
  lit "                <p>The requested URL was not found on this server.</p>\n" ++
  lit "                <p><a href=\"/\">Return to homepage</a></p>\n" ++
  lit "            </body>\n" ++
  lit "            </html>"

def requestUri (uri : Bytes) : Bytes := if uri = lit "/" then lit "/index.html" else uri

namespace WebServer

def statusReport (now : ℤ) (s : WebServer) : Bytes :=
  lit "\x7b\n" ++
  lit "                \"status\": \"running\",\n" ++
  lit "                \"service\": \"cs-web-server\",\n" ++
  lit "                \"port\": 8080,\n" ++
  lit "                \"connections\": " ++ decimal s.connections.keys.length ++ lit ",\n" ++
  lit "                \"timestamp\": " ++ decimal now ++ lit "\n" ++
  lit "            \x7d"

/-- `now` is `time(nullptr)`. -/
def generateDefaultResponse (disk : Disk) (now : ℤ) (uri : Bytes) (s : WebServer)
    (call : HttpCall) : Option Bytes × HttpCall :=
  if uri = lit "/" ∨ uri = lit "/index.html" then
    ((readFile disk (lit "web/index.html")).map fun content =>
      if content ≠ [] then content else fallbackPage, call.read (lit "web/index.html"))
  else if uri = lit "/api/status" then (some (s.statusReport now), call)
  else
    ((readFile disk (lit "web/404.html")).map fun content =>
      if content ≠ [] then content else notFoundPage, call.read (lit "web/404.html"))

/-- `callback_http` on LWS_CALLBACK_HTTP, for the C string `uri`. -/
def callbackHttp (disk : Disk) (now : ℤ) (uri : Bytes) (s : WebServer) :
    Option Unit × HttpCall :=
  match serveStaticFile disk (requestUri uri) {} with
  | (none, call) => (none, call)
  | (some true, call) => (some (), call)
  | (some false, call) =>
    match s.generateDefaultResponse disk now (requestUri uri) call with
    | (none, call) => (none, call)
    | (some response, call) => (some (), sendHttpResponse response 200 (lit "text/html") call)

end WebServer

end OcppServer
