import RustHttpServer.Gregorian
import RustHttpServer.Host

/-!
# A small site

A site to try the handler on: a document root with a page, an empty file and a
directory whose index is a symbolic link to a file outside the root.
-/

namespace RustHttpServer

open Foundation Utf8

namespace Site

/-- A regular file that nobody may execute, written at the epoch. -/
def regular (content : String) : DiskFile where
  content := .ok (encode content.toList)
  modified := 0
  mode := 0o644

/-- The place along some names. -/
def place (names : List String) : List Name := names.map fun name => encode name.toList

def nodes : List (List Name × Node DiskFile) :=
  [(place ["www"], .directory),
    (place ["www", "page.txt"], .file (regular "hi")),
    (place ["www", "empty"], .file (regular "")),
    (place ["www", "docs"], .directory),
    (place ["www", "docs", "index.html"], .symlink (Path.ofBytes (encode "/etc/secret".toList))),
    (place ["etc"], .directory),
    (place ["etc", "secret"], .file (regular "secret"))]

def fs : FileSystem DiskFile where
  node names := nodes.lookup names
  workingDirectory := []
  isDirectory := .root

/-- The header lines of a response in a fixed order. -/
def headerOrder : HeaderOrder :=
  .ofKeys [.contentLength, .contentType, .date, .lastModified, .server, .transferEncoding]
    (by decide) fun field => by cases field <;> decide

/-- The site when no script runs, at the epoch. -/
def world : World gregorian where
  fs := fs
  directory _ := { isDir := true, modified := 0, mode := 0o755 }
  cgi _ := .finished []
  now := (0 : Int)
  headerOrder := headerOrder

/-- The page of the site. -/
def page : Path := Path.ofBytes (encode "/www/page.txt".toList)

/-- The site after its page has been edited. -/
def edited (content : String) (modified : Int) : World gregorian :=
  { world with fs := { fs with
      node := fun names => List.lookup names
        ((place ["www", "page.txt"], .file { regular content with modified }) :: nodes)
      isDirectory := .root } }

def virtualHost : VirtualHost where
  directives := Finmap.insert .documentRoot "/www".toList
    (Finmap.insert .serverName "site".toList ∅)

def serverConfig : ServerConfig where
  directives := Finmap.insert .listenPort "8080".toList ∅
  virtualHosts := [virtualHost]

def host : Host where
  serverConfig := serverConfig
  cgi := { serverConfig }
  files := { cache := ∅ }

/-- A GET for a path of the site. -/
def get (path : String) : Request where
  header := {
    requestLine := {
      method := .get
      requestPath := path.toList
      queryString := []
      httpVersion := httpVersion11 }
    headerLines := Finmap.insert .host "site".toList ∅ }
  remote := ⟨"127.0.0.1:4000".toList⟩
  body := []

end Site

end RustHttpServer
