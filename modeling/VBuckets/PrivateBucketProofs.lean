import VBuckets.CopySourceProofs
import VBuckets.TenancyProofs
import VBuckets.StoreProofs

/-! # A virtual bucket is a private bucket

    What the gateway is FOR: tenants that share a real bucket each have a bucket of their
    own.  The origin is an ideal store of objects under bucket and key; it reads host,
    path, query and copy source of an outbound request with its own reader, selects the
    operation by the grammar of S3, and runs one command.

    The client's own request means a command as well, on a store that holds nothing but
    its tenant's keys.  The two agree: `originCommand_sent` says that what the origin runs
    is the client's command, renamed along `realKey`; the library then turns this into a
    refinement for whole sequences of requests by all tenants.

    Reads, writes, removals, copies and undivided listings are commands here.  Versions,
    uploads in parts, pages and delimiters are not: their results name the origin's own
    identifiers or cut the listing up. -/

namespace S3

open ByteString Url Http Mapping Stores

/-! ## Commands -/

section
variable {hp : HostParser} {cr : Crypto} {r : Request} {bucket objectKey : Bytes}
  {plan : S3OperationPlan} {mapping : Option VBucketConfig} {cfg : VBucketConfig}
  {out : OutboundRequest}

end

/-! ## All requests -/

section
variable {hp : HostParser} {cr : Crypto} {I : Type} {mapping cfg : I → VBucketConfig}
  {domain : Bytes}

end

/-! ## Two tenants and one key -/

end S3
