import KnownAnswer.Fixture.Load

/-!
# Built-in vectors

Vectors with known answers: the packets 1 to 12 of RFC 3610, and five scenarios for a nonce of
thirteen bytes.  They are fixtures like any other, but for their texts, which the program holds.
-/

namespace KnownAnswer.Builtin

def unlines (lines : List String) : String := String.join (lines.map fun line => line ++ "\n")

/-- The packet vectors of RFC 3610. -/
def packetsText : String := unlines [
  "# RFC 3610 section 8 packet vectors #1 through #12.",
  "version = 1",
  "",
  "[[vector]]",
  "id = \"rfc3610-packet-1\"",
  "key = \"c0c1c2c3c4c5c6c7c8c9cacbcccdcecf\"",
  "nonce = \"00000003020100a0a1a2a3a4a5\"",
  "header = \"0001020304050607\"",
  "plaintext = \"08090a0b0c0d0e0f101112131415161718191a1b1c1d1e\"",
  "mlen = 8",
  "expected = \"588c979a61c663d2f066d0c2c0f989806d5f6b61dac38417e8d12cfdf926e0\"",
  "",
  "[[vector]]",
  "id = \"rfc3610-packet-2\"",
  "key = \"c0c1c2c3c4c5c6c7c8c9cacbcccdcecf\"",
  "nonce = \"00000004030201a0a1a2a3a4a5\"",
  "header = \"0001020304050607\"",
  "plaintext = \"08090a0b0c0d0e0f101112131415161718191a1b1c1d1e1f\"",
  "mlen = 8",
  "expected = \"72c91a36e135f8cf291ca894085c87e3cc15c439c9e43a3ba091d56e10400916\"",
  "",
  "[[vector]]",
  "id = \"rfc3610-packet-3\"",
  "key = \"c0c1c2c3c4c5c6c7c8c9cacbcccdcecf\"",
  "nonce = \"00000005040302a0a1a2a3a4a5\"",
  "header = \"0001020304050607\"",
  "plaintext = \"08090a0b0c0d0e0f101112131415161718191a1b1c1d1e1f20\"",
  "mlen = 8",
  "expected = \"51b1e5f44a197d1da46b0f8e2d282ae871e838bb64da8596574adaa76fbd9fb0c5\"",
  "",
  "[[vector]]",
  "id = \"rfc3610-packet-4\"",
  "key = \"c0c1c2c3c4c5c6c7c8c9cacbcccdcecf\"",
  "nonce = \"00000006050403a0a1a2a3a4a5\"",
  "header = \"000102030405060708090a0b\"",
  "plaintext = \"0c0d0e0f101112131415161718191a1b1c1d1e\"",
  "mlen = 8",
  "expected = \"a28c6865939a9a79faaa5c4c2a9d4a91cdac8c96c861b9c9e61ef1\"",
  "",
  "[[vector]]",
  "id = \"rfc3610-packet-5\"",
  "key = \"c0c1c2c3c4c5c6c7c8c9cacbcccdcecf\"",
  "nonce = \"00000007060504a0a1a2a3a4a5\"",
  "header = \"000102030405060708090a0b\"",
  "plaintext = \"0c0d0e0f101112131415161718191a1b1c1d1e1f\"",
  "mlen = 8",
  "expected = \"dcf1fb7b5d9e23fb9d4e131253658ad86ebdca3e51e83f077d9c2d93\"",
  "",
  "[[vector]]",
  "id = \"rfc3610-packet-6\"",
  "key = \"c0c1c2c3c4c5c6c7c8c9cacbcccdcecf\"",
  "nonce = \"00000008070605a0a1a2a3a4a5\"",
  "header = \"000102030405060708090a0b\"",
  "plaintext = \"0c0d0e0f101112131415161718191a1b1c1d1e1f20\"",
  "mlen = 8",
  "expected = \"6fc1b011f006568b5171a42d953d469b2570a4bd87405a0443ac91cb94\"",
  "",
  "[[vector]]",
  "id = \"rfc3610-packet-7\"",
  "key = \"c0c1c2c3c4c5c6c7c8c9cacbcccdcecf\"",
  "nonce = \"00000009080706a0a1a2a3a4a5\"",
  "header = \"0001020304050607\"",
  "plaintext = \"08090a0b0c0d0e0f101112131415161718191a1b1c1d1e\"",
  "mlen = 10",
  "expected = \"0135d1b2c95f41d5d1d4fec185d166b8094e999dfed96c048c56602c97acbb7490\"",
  "",
  "[[vector]]",
  "id = \"rfc3610-packet-8\"",
  "key = \"c0c1c2c3c4c5c6c7c8c9cacbcccdcecf\"",
  "nonce = \"0000000a090807a0a1a2a3a4a5\"",
  "header = \"0001020304050607\"",
  "plaintext = \"08090a0b0c0d0e0f101112131415161718191a1b1c1d1e1f\"",
  "mlen = 10",
  "expected = \"7b75399ac0831dd2f0bbd75879a2fd8f6cae6b6cd9b7db24c17b4433f434963f34b4\"",
  "",
  "[[vector]]",
  "id = \"rfc3610-packet-9\"",
  "key = \"c0c1c2c3c4c5c6c7c8c9cacbcccdcecf\"",
  "nonce = \"0000000b0a0908a0a1a2a3a4a5\"",
  "header = \"0001020304050607\"",
  "plaintext = \"08090a0b0c0d0e0f101112131415161718191a1b1c1d1e1f20\"",
  "mlen = 10",
  "expected = \"82531a60cc24945a4b8279181ab5c84df21ce7f9b73f42e197ea9c07e56b5eb17e5f4e\"",
  "",
  "[[vector]]",
  "id = \"rfc3610-packet-10\"",
  "key = \"c0c1c2c3c4c5c6c7c8c9cacbcccdcecf\"",
  "nonce = \"0000000c0b0a09a0a1a2a3a4a5\"",
  "header = \"000102030405060708090a0b\"",
  "plaintext = \"0c0d0e0f101112131415161718191a1b1c1d1e\"",
  "mlen = 10",
  "expected = \"07342594157785152b074098330abb141b947b566aa9406b4d999988dd\"",
  "",
  "[[vector]]",
  "id = \"rfc3610-packet-11\"",
  "key = \"c0c1c2c3c4c5c6c7c8c9cacbcccdcecf\"",
  "nonce = \"0000000d0c0b0aa0a1a2a3a4a5\"",
  "header = \"000102030405060708090a0b\"",
  "plaintext = \"0c0d0e0f101112131415161718191a1b1c1d1e1f\"",
  "mlen = 10",
  "expected = \"676bb20380b0e301e8ab79590a396da78b834934f53aa2e9107a8b6c022c\"",
  "",
  "[[vector]]",
  "id = \"rfc3610-packet-12\"",
  "key = \"c0c1c2c3c4c5c6c7c8c9cacbcccdcecf\"",
  "nonce = \"0000000e0d0c0ba0a1a2a3a4a5\"",
  "header = \"000102030405060708090a0b\"",
  "plaintext = \"0c0d0e0f101112131415161718191a1b1c1d1e1f20\"",
  "mlen = 10",
  "expected = \"c0ffa0d6f05bdb67f24d43a4338d2aa4bed7b20e43cd1aa31662e7ad65d6db\""]

/-- The scenarios 1c and 2c, and those without a payload, without a header, or without both. -/
def scenariosText : String := unlines [
  "# Conformance scenarios for the AES-128 CCM profile (13-byte nonce).",
  "version = 1",
  "",
  "# Scenario 1c: 86 bytes of payload and 25 bytes of header, 16-byte tag.",
  "[[vector]]",
  "id = \"scenario-1c\"",
  "key = \"000102030405060708090a0b0c0d0e0f\"",
  "nonce = \"000102030405060708090a0b0c\"",
  "header = \"000102030405060708090a0b0c0d0e0f101112131415161718\"",
  "plaintext = \"000102030405060708090a0b0c0d0e0f101112131415161718191a1b1c1d1e1f" ++
    "202122232425262728292a2b2c2d2e2f303132333435363738393a3b3c3d3e3f" ++
    "404142434445464748494a4b4c4d4e4f505152535455\"",
  "mlen = 16",
  "expected = \"\"\"",
  "1635b68b570cfc85529e39ac913910d7f3111631623867f134e6e441904fd504",
  "f5746d6bf189815f51a48f07c994ed9eee24e8d2eada7e4218b588f67a3af1a3",
  "8dfeed70ab5a153628340ba1f9f1ee95c32ea4f7a7982d3ea4d084c39bc1b932",
  "688e7fb51582",
  "\"\"\"",
  "",
  "# Scenario 2c: 1224 bytes of payload cycling 01..0a and 40 bytes of header.",
  "[[vector]]",
  "id = \"scenario-2c\"",
  "key = \"000102030405060708090a0b0c0d0e0f\"",
  "nonce = \"000102030405060708090a0b0c\"",
  "header = \"000102030405060708090a0b0c0d0e0f101112131415161718000102030405060708090a0b0c0d0e\"",
  "plaintext = \x7b repeat = \"0102030405060708090a\", len = 1224 \x7d",
  "mlen = 16",
  "expected = \"\"\"",
  "1736b78c560ffd8a539d32a59e301bdee4080d28772f72e229f9f9528558ca19",
  "d6514a4ed2a4ae72788fa628e0bfc4b9d71fdbe3ddeb4d732784bbc74705cc98",
  "c8b9a83be6155273637944ecb2b4a9d0927df5a0f6cb7e4dbf9fdbe96056703f",
  "47a6cda02264eccc8339c8484a5eafa43b80eb48c35317a1616e2b5b753c0835",
  "ac7ee4867dcb1563b108f3481b9056c771e48b7c2d4d010d2cb04ebd8eb8c569",
  "b9eee7a59dce8154cac9ef5656d17cecff7f76d5bf778f564015377993b3c872",
  "8522160692e1083af61f182212dea86e50d7da4492b9a89957d3b9528ac62cd5",
  "578e0af9b0e8ecf386878bcbd72de09087b16001c126a12b150044f7a7837fbf",
  "1fa3873609c782819b1b0659284ba29d6f22ffae5e35ab67bca39ab02a975541",
  "2a89b9e263f6ecdaf634250716da82de3a0bb431c7e189517369f30f315031e2",
  "0906a3e839a7ecf73859b0851c1e78c1e891bc5a7c10cd3b8042942dfb3fb3bc",
  "a77520d7f6f71cd3f2d1dd083fe2913bff4efe3e3077718a371ef9e6e0abc5ba",
  "e43aad040e93d94b77495906cfaddd3fc48958945a8d763557d4379deda30bf0",
  "9c50f7b72386ab3a1ed8a62dc788a6d12a5adcf82fb58ec2098d1984d998ab4e",
  "c86bb346ea2d95c755fbb6d8834ca340f6bd4fd32d493aaab5a1ef8cc551401d",
  "83e23c2970b2628314caebfc689ecf5423850b78f6c79fdd6c898fad50e1c133",
  "218652b59a39bdff61a4d7244af557440fdf4aa5eb973b01af1a5cc5a1c7a5ab",
  "3d682cf7c1cfdf00dbdbf12cdf7aec9030fd1d3fa8365d3f3ab2c90557a30d78",
  "fa38e8d7d69c42bfa180cf229d32a4b5a92067f08e9e0f13b66156bd8b8c5887",
  "a1a37520219544a1b39d92bb6efe0778e82c63669d1979ee8c0b71cbe2d87733",
  "972ee415b5a177cc56fefa0671ad17b58e32861d004483fff386d65ecd9030c0",
  "4b569853b242b970870b5e0c9871d2f0c7a7264dec64f2414c52a56b0c9930b8",
  "306ca6005e0fb0bc044ea5978382855b647bea205a6173e5ee14cb82737b7e44",
  "0165a4aa3af885d2e5d84080b17feb3c854e0a09ab0cf93351150db9b651837f",
  "090c2d34f5558c3f1f47808210e899e35d27823bc05f87c3beb7bef831d0ca3e",
  "7b53316f76edf9cffeb8ffb1e29cfa2b54bde7a64f088dbbf644983231c9373b",
  "65aefe6c0abf8f7145f110c5ddb586047510bea2c3122f70a8565c6d822015ac",
  "afaa320c65a80d58999974a71188b4be37147fbba33ceaf09c8edf8d070529c1",
  "4b1d4bbd71814aab0c286c91e25e18775ea87562b618f060e9465606cc48d23a",
  "68fc6a79b5e1dece336b324b35e309b1a015127d65bb0e1d29603b751908476b",
  "69958d0a845a7d76da0496cead59db8ac1ece04622981487aaab9d558d27e1f7",
  "11c1ff7cbc475a59e00309280c42b6dd1fe39d71999f5c826e4964657198e94d",
  "5a31144418e38a41afb1de85497a6d33ef8b1d9bf0c775984eaa9ca062bfe21c",
  "4c564e59e0bcc081871b6a85fba3c6db0430c5c0f5c9d3d04a4c32974fd6d18b",
  "4d49a21ee991380d1ed8c443cda6b6b30b6bc03311e94c7f2d7f6dac91152bbf",
  "cdae2533fc7aa9452fce14e2acf88cfb3d019bfe03159f27895a68773c79909a",
  "b6255eeb0c9d2905ed7f4e5ecc988acd37322e938bc53f402a78a273a6900e1f",
  "6c081274d5284a20438348c477be2f159e450f43a69e520b4c11d21629899e6f",
  "c5d3b29a6fe564c4f3e02422b72f627a7a094f0e0bcbf564",
  "\"\"\"",
  "",
  "# Empty header and payload: the output is the 4-byte tag alone.",
  "[[vector]]",
  "id = \"empty-payload\"",
  "key = \"000102030405060708090a0b0c0d0e0f\"",
  "nonce = \"000102030405060708090a0b0c\"",
  "header = \"\"",
  "plaintext = \"\"",
  "mlen = 4",
  "expected = \"67793b6c\"",
  "",
  "[[vector]]",
  "id = \"no-associated-data\"",
  "key = \"000102030405060708090a0b0c0d0e0f\"",
  "nonce = \"000102030405060708090a0b0c\"",
  "header = \"\"",
  "plaintext = \"0102030405060708090a0b0c0d0e0f1011121314151617\"",
  "mlen = 10",
  "expected = \"1736b78c560ffd8a539d38ab903a11c8f2121736633b661e10c48e6c2d85dc6855\"",
  "",
  "[[vector]]",
  "id = \"no-payload\"",
  "key = \"000102030405060708090a0b0c0d0e0f\"",
  "nonce = \"000102030405060708090a0b0c\"",
  "header = \"000102030405060708090a0b0c0d0e0f101112131415161718\"",
  "plaintext = \"\"",
  "mlen = 8",
  "expected = \"f878f9c5fc776651\""]

/-- All built-in vectors, the packets first. -/
def load : Except Fixture.LoadError (List TestVector) := do
  let packets ← Fixture.parse packetsText
  let scenarios ← Fixture.parse scenariosText
  let vectors := packets ++ scenarios
  Fixture.requireDistinctIds vectors
  return vectors

end KnownAnswer.Builtin
