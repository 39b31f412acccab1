import Orator.Files

/-! The file tree of a bare machine, on which the service is rehearsed. -/

namespace Orator.Rehearsal

def bareDirectories : List (List String) :=
  [["bin"], ["boot"], ["dev"], ["dev", "shm"], ["etc"], ["home"], ["lib"], ["lib64"], ["media"], ["mnt"],
    ["opt"], ["proc"], ["root"], ["run"], ["sbin"], ["srv"], ["sys"], ["tmp"], ["usr"], ["usr", "bin"],
    ["usr", "include"], ["usr", "lib"], ["usr", "local"], ["usr", "local", "bin"], ["usr", "local", "lib"],
    ["usr", "sbin"], ["usr", "share"], ["usr", "src"], ["var"], ["var", "cache"], ["var", "lib"],
    ["var", "log"], ["var", "tmp"]]

def accounts : List UInt8 := "root:x:0:0:root:/root:/bin/sh\n".toUTF8.toList

def machine : FileTree where
  nodes := (bareDirectories.map fun names => (names, .directory)) ++
    [(["dev", "null"], .file []), (["etc", "passwd"], .file accounts)]
  working := ["root"]

def program : List String := ["usr", "bin", "orator"]

end Orator.Rehearsal
