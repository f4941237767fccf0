import SlurmTracer.Lib.Bytes

/-! `sinks/http/endpoint.cpp`: the http sink's `endpoint` setting. -/
namespace SlurmTracer.Core
open Lib

/-- `HttpEndpoint`. -/
structure HttpEndpoint where
  host : Bytes
  port : UInt16 := 80
  path : Bytes := ascii "/"
  deriving DecidableEq

/-- `kPrefix`. -/
def endpointPrefix : Bytes := ascii "http://"

/-- The port after the authority's first colon. -/
def parsePort (portStr : Bytes) : Option UInt16 :=
  if portStr = [] then none
  else if portStr.any (fun c => !isDigit c) then none
  else match strtoul portStr with
    | none => none
    | some port => if port = 0 ∨ port > 65535 then none else some (UInt16.ofNat port)

/-- `parse_http_endpoint`: host up to a colon, port up to a slash, path from
there on. -/
def parseHttpEndpoint (endpoint : Bytes) : Option HttpEndpoint :=
  if endpoint.take endpointPrefix.length ≠ endpointPrefix then none
  else
    let rest := endpoint.drop endpointPrefix.length
    if rest = [] then none
    else
      let authority := rest.takeWhile (· ≠ 47)
      if authority = [] then none
      else
        let path := match rest.dropWhile (· ≠ 47) with
          | [] => ascii "/" -- no slash in it
          | path => path
        match authority.dropWhile (· ≠ 58) with
        | [] => some { host := authority, path } -- no colon
        | _ :: portStr =>
          let host := authority.takeWhile (· ≠ 58)
          if host = [] then none
          else (parsePort portStr).map fun port => { host, port, path }

end SlurmTracer.Core
