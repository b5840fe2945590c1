import DocSelect.Regex.Property.Table

/-!
# Breaks in running text

What a character does to the division of a text into characters as they are seen, into words and
into sentences.
-/
namespace DocSelect.Regex.Property

def graphemeBreaks : List (List String × Table) := [
  (["cr"],
    .listed "d0"),
  (["control", "cn"],
    .listed "09111h1lfi0d0lme0hhv10nvc021h86j1ftuof0v0bjkj4foom03hksf7siuo5hfm0nfv0ugf"),
  (["extend", "ex"],
    .listed "jg0mfhh36hg7ic10111110k8aj0h4h00m56252113i30hehalbaja890h83181214ib2jb8iah71hfj7010
       474036a1hd0ja010238090a1ha021j9041412230he130b1j90441140h41h6510ja011138072a1he0jb0
       10c090i8030j7012521371b1hd0ja02110321371b1hc1j9110238090a1hd0k8040221080l1026c7m202
       8b6k91hb01010j7d14115a1i390m63151121h9142h03d02160f0irf2jr23hc2hd1he1k0116802a90id2
       10n51i20n62419062tb120ja0161010276920j0hej13j0942i68c1i0325j80113014j8721p821c16406
       031s6jfigc0s3i0rve2od0m0hfiia5m91nlt4319i01l01hh003040h9150p71hah1d0i67h9a10ic2j002
       32120i40k352121c080if0j3012215110ia180ue02040kvj00iu1fh0fhme1ild0u20p54mo621153i824
       0q51ijd3k14hjd1kf3k6aj13nb0j6ei9021a2j132170jd2i4417je0c1j48108320lf2236020pd037h51
       j911010c090e634k30251020124210e1l572210h70l102510201111ub0236111hb1l572011ma01027m5
       0102314hg3811v50a340p032140i09i8523809522iec11hp661510l2h5261111na530111610k813010h
       lb1b1j4452h70hku506eiss8b32ps04jb6kh80jf3l10b1ksqb1him1id2h6ihe4358726he3p42nrbj64j
       180e0h641ell061h0261114m40q06hn70jd3hvc3ve1iu06md6qr04sgsi0lfo0uf"),
  (["l"],
    .listed "hhg0lfpog0hc"),
  (["lf"],
    .listed "a0"),
  (["lv"],
    .listed "qsg00hb0hb0hb0hb0hb0hb0hb0hb0hb0hb0hb0hb0hb0hb0hb0hb0hb0hb0hb0hb0hb0hb0hb0hb0hb0hb0
       hb0hb0hb0hb0hb0hb0hb0hb0hb0hb0hb0hb0hb0hb0hb0hb0hb0hb0hb0hb0hb0hb0hb0hb0hb0hb0hb0hb
       0hb0hb0hb0hb0hb0hb0hb0hb0hb0hb0hb0hb0hb0hb0hb0hb0hb0hb0hb0hb0hb0hb0hb0hb0hb0hb0hb0h
       b0hb0hb0hb0hb0hb0hb0hb0hb0hb0hb0hb0hb0hb0hb0hb0hb0hb0hb0hb0hb0hb0hb0hb0hb0hb0hb0hb0
       hb0hb0hb0hb0hb0hb0hb0hb0hb0hb0hb0hb0hb0hb0hb0hb0hb0hb0hb0hb0hb0hb0hb0hb0hb0hb0hb0hb
       0hb0hb0hb0hb0hb0hb0hb0hb0hb0hb0hb0hb0hb0hb0hb0hb0hb0hb0hb0hb0hb0hb0hb0hb0hb0hb0hb0h
       b0hb0hb0hb0hb0hb0hb0hb0hb0hb0hb0hb0hb0hb0hb0hb0hb0hb0hb0hb0hb0hb0hb0hb0hb0hb0hb0hb0
       hb0hb0hb0hb0hb0hb0hb0hb0hb0hb0hb0hb0hb0hb0hb0hb0hb0hb0hb0hb0hb0hb0hb0hb0hb0hb0hb0hb
       0hb0hb0hb0hb0hb0hb0hb0hb0hb0hb0hb0hb0hb0hb0hb0hb0hb0hb0hb0hb0hb0hb0hb0hb0hb0hb0hb0h
       b0hb0hb0hb0hb0hb0hb0hb0hb0hb0hb0hb0hb0hb0hb0hb0hb0hb0hb0hb0hb0hb0hb0hb0hb0hb0hb0hb0
       hb0hb0hb0hb0hb0hb0hb0hb0hb0hb0hb0hb0hb0hb0hb0hb0hb0hb0hb0hb0hb0hb0hb0hb0hb0hb0hb0hb
       0hb0hb0hb0hb0hb0hb0hb0hb0hb0hb0hb0hb0hb0hb0hb0hb0hb0hb0hb0hb0hb0hb0hb0hb0hb0hb0hb0h
       b0hb0hb0hb0hb0hb0hb0hb0hb0hb0hb0hb0hb0hb0hb0hb0hb0hb0hb0hb0hb0hb0hb0hb0hb0hb0hb0hb0
       hb0hb0hb0hb0hb0hb0hb0hb0hb0hb0hb0hb0hb0hb0hb0hb0hb0hb0hb0hb0hb0hb0hb0hb0hb0hb0hb0hb
       0hb0hb0hb0hb0hb0hb0hb0hb0hb0hb0hb0hb0"),
  (["lvt"],
    .listed "qsg1ha1ha1ha1ha1ha1ha1ha1ha1ha1ha1ha1ha1ha1ha1ha1ha1ha1ha1ha1ha1ha1ha1ha1ha1ha1ha1h
       a1ha1ha1ha1ha1ha1ha1ha1ha1ha1ha1ha1ha1ha1ha1ha1ha1ha1ha1ha1ha1ha1ha1ha1ha1ha1ha1ha1
       ha1ha1ha1ha1ha1ha1ha1ha1ha1ha1ha1ha1ha1ha1ha1ha1ha1ha1ha1ha1ha1ha1ha1ha1ha1ha1ha1ha
       1ha1ha1ha1ha1ha1ha1ha1ha1ha1ha1ha1ha1ha1ha1ha1ha1ha1ha1ha1ha1ha1ha1ha1ha1ha1ha1ha1h
       a1ha1ha1ha1ha1ha1ha1ha1ha1ha1ha1ha1ha1ha1ha1ha1ha1ha1ha1ha1ha1ha1ha1ha1ha1ha1ha1ha1
       ha1ha1ha1ha1ha1ha1ha1ha1ha1ha1ha1ha1ha1ha1ha1ha1ha1ha1ha1ha1ha1ha1ha1ha1ha1ha1ha1ha
       1ha1ha1ha1ha1ha1ha1ha1ha1ha1ha1ha1ha1ha1ha1ha1ha1ha1ha1ha1ha1ha1ha1ha1ha1ha1ha1ha1h
       a1ha1ha1ha1ha1ha1ha1ha1ha1ha1ha1ha1ha1ha1ha1ha1ha1ha1ha1ha1ha1ha1ha1ha1ha1ha1ha1ha1
       ha1ha1ha1ha1ha1ha1ha1ha1ha1ha1ha1ha1ha1ha1ha1ha1ha1ha1ha1ha1ha1ha1ha1ha1ha1ha1ha1ha
       1ha1ha1ha1ha1ha1ha1ha1ha1ha1ha1ha1ha1ha1ha1ha1ha1ha1ha1ha1ha1ha1ha1ha1ha1ha1ha1ha1h
       a1ha1ha1ha1ha1ha1ha1ha1ha1ha1ha1ha1ha1ha1ha1ha1ha1ha1ha1ha1ha1ha1ha1ha1ha1ha1ha1ha1
       ha1ha1ha1ha1ha1ha1ha1ha1ha1ha1ha1ha1ha1ha1ha1ha1ha1ha1ha1ha1ha1ha1ha1ha1ha1ha1ha1ha
       1ha1ha1ha1ha1ha1ha1ha1ha1ha1ha1ha1ha1ha1ha1ha1ha1ha1ha1ha1ha1ha1ha1ha1ha1ha1ha1ha1h
       a1ha1ha1ha1ha1ha1ha1ha1ha1ha1ha1ha1ha1ha1ha1ha1ha1ha1ha1ha1ha1ha1ha1ha1ha1ha1ha1ha1
       ha1ha1ha1ha1ha1ha1ha1ha1ha1ha1ha1ha1ha"),
  (["prepend", "pp"],
    .listed "mg05t70j10ho01l00kmb0hgjme0f0v41igd0lmd010v80k95irc0hrb0"),
  (["regionalindicator", "ri"],
    .listed "hvhu6h9"),
  (["spacingmark", "sm"],
    .listed "pg30j70228311j21jb16121j60ja2k20ja28011j51jc06121n20113212j42jd3jd1ja02011ie0e1jb15
       212j51kc166h31jf0nf0oa1jf0r1091h91ic0nj107711hla3224115u01ja010h55p10j93k00he041jf0
       2210j5781qb0h50orib120l81j2foe0j00j014121mf121h80pd02150ud1111110mkh3010nf0id241n30
       h81jb0j0290e0ld231qc2hf1jb0132121h51l51f011m728130mb160111020ue16320n128110md011me0
       70hg5290v84117010oe28340l40hd1je0hp70e0ma07020t544110hle1c0j0181khua2ui4j6"),
  (["t"],
    .listed "hhq8l7slsbj0"),
  (["v"],
    .listed "hhm0k7smg8h6plpc033"),
  (["zwj"],
    .listed "iggd0")]

def wordBreaks : List (List String × Table) := [
  (["aletter", "le"],
    .listed "k1h96h9if0a0405h61he1htf6i1n041123106012101h31l21oa8q51i523101i810m80iciai311m210f1
       71a220f11hdhdl8b0h8i091405h5409030h7h87a5h715h1i9jaj530h2079ff47212h516103330h00d11
       2e1a085412h516111111hf310h32h08121h516111430h20f1h70b7212h516111430he112f0h10153213
       31101131323bh60j47121h61f30ha22021he047121h6191430hf111f1h18121i820h005282h855h13h7
       181026hj90jf71i3hb4hh3i510502ia1hkc132610132i8132i0132610132e1j8132k2i5fh0l5253imb2
       h01h95ka3a7h1dh2eh1ec12qfl8742i1105k5aheu1h6ueieh17j6hdd1aibhai3i92ai32a5ia22i93151
       1305rfk0hh5252i525271010101he2j41610321633254c5216n40d0h0cm504029103460101013193354
       40h1i8jidb1i6nh6u46331ci510502j770h0h69616161616161616l00ht50j51s8ia1ldh1hfmuk0kock
       3id2hgc3fa1h4ieh0he2kfh8s5211017h5f12131h6hdj3ej1je53011bhbah6h9hc7iehc0j0i8h7217p4
       a72c5252596161j96n2hdirq3ch64j0ijg46c4j8m1i1hmah2jf2j5i8bn441o6i4h96h9k5he35252522i
       3b1h91h2111e2di2nak5j4hgbhc3j0ifhfdhd5i5ahd2i34714iapdh2i34i34i78j3ca1e16111a1e1611
       3j3chj69h5a7h851i918k55201ib11302h6ah69hek1h211ah5ah9k6j761k00f3121hciahc3hci371hbh
       bj5ah5ah2dh1mek8j7j2dj2di3i6hb9h6vai961h02jbhca08h5iah1ieh4hbh6cj4j9120dici0h8hai3h
       d0208i230cife3h5010i3h11h8h31jf610131e197iei67212h516111430h20c4he910201i510h9010ic
       j4h23h42heifh4110r8iei93i4ifh40jbiad0hk7ibn4jfhf72027111h7f010le72i6h0010hc0ai770h5
       0bidh30h2k8s7i0hf81i4h10j1hdn06111i5h50h95111hfe0hk7h2f01c1i1nc0kfjp9m6meh1s3qkcm0f
       kifh15h9vpa5ik6hqr9hdmu2ij87heh1keh1hdh2ifh03hfh45h2hr0ict3jfo0ka50k2ck0110kshcma5c
       3879hnm6l41k6112021231b10161k01327161hb131410361hl32h81h81he1h81he1h81he1h81he1h817
       nj4he65hg5jdp2ica6h00hk1hdh2ibhu4hbu4hd20huf613111e1s4jbk370kr431ha1110201913101060
       401010121110201010101011102316131310191h052141h0in4h96h98b29"),
  (["cr"],
    .listed "d0"),
  (["doublequote", "dq"],
    .listed "i20"),
  (["extend"],
    .listed "jg0mfhh36hg7ic10111110k8aj0h4h00m56252113i30hehalbaja890h83181214ib2jb8iah71i0j621h
       116a1hd2j8016212290a1ha022j8014412230he130b2j80171212h41h6512j8016212272a1he0jb4321
       390i84j7016121371b1hd2j8016121371b1f0c3j7116121390a1hd2k60451017h21jd026c7m2028b6k9
       1hb0101041j1h3115a1i390m4h3h7342122633db10a3irf2jr23hc2hd1he1k0hf90id210n51i20n6b4b
       tb4j991hc20j0hej14ifh0i68c2hecj8dj0h3p821h4406022s6jfigc0s3i0rve2od0m0hfiia5m91nlt4
       319i01l01hh003040h7440l31j2h1hah1d0i67h9cic3ifdi40k3dc081id2j2012215110i9451uc711kv
       j00iu1fh0fhme1ild0u20p54mo621153i8240q51ijd3k14hjd1kf3k6aj13na2j5ei9021a3ida70jd2i4
       dh01ic0c2j0d8311lcb6020pdbh53j7116212290a12634k381020131410e1l2h1h70l1h3ub628hb1l2h
       0macm5ehg0ev5511231011od62630hc9i8613809aiefhp5717l2h51dna530111610k241114hlb39110j
       0634h70hku506eiss8h1ps04jb6kh801j673l10b1ksqb1him1id2h6ihe4358726he3p42nrbj64j180e0
       h641ell061h0261114m40q06hn70jd3hvc3ve1iu06md6qr04sgsi0lfo0uf"),
  (["extendnumlet", "ex"],
    .listed "lf0hvsf0f1h30ttte1h82uf0"),
  (["format", "fo"],
    .listed "qd0lme0hhv10nvf1ha4j1419tuof0v92jkj4foom03hksf7siuo60"),
  (["hebrewletter", "hl"],
    .listed "lt0ha43vlia0191c1410111119"),
  (["katakana", "ka"],
    .listed "jgj14m513la13v0ft0ie1l7ssgej7rgl23161110hhf2j20e3"),
  (["lf"],
    .listed "a0"),
  (["midletter", "ml"],
    .listed "ja0nc0isf0ht70p40hqj20ttub0k10s40"),
  (["midnum", "mn"],
    .listed "ic0e0jk20iga0o21le0hob0hokb0ttsb030jb030r70e0"),
  (["midnumlet", "mb"],
    .listed "ie0hvu91a0tuid0r4060"),
  (["newline", "nl"],
    .listed "b1n80hvq21"),
  (["numeric", "nu"],
    .listed "j09ls65la910n10h29s69s61l00o39n69n69n69n69n69n69n69n69n69m09n69k69hh69k69nk69i69hic
       9o09q6969r69l69o6969ops69iq69i69s69h69l69hp69ljh69lo69oo6969jhc9kd0f0i29jc9p09hh69h
       l69n69hn69m696h3kc9hq69m69ip69l69v69k69hq69kht69pi69l69o69ih69lvn69qt4j1pk09hq69hv6
       9v79jl59hip69"),
  (["regionalindicator", "ri"],
    .listed "hvhu6h9"),
  (["singlequote", "sq"],
    .listed "i70"),
  (["wsegspace"],
    .listed "i00hmlf0pnf612l40vq00"),
  (["zwj"],
    .listed "iggd0")]

def sentenceBreaks : List (List String × Table) := [
  (["aterm", "at"],
    .listed "ie0hvv50tuid0rb0"),
  (["cr"],
    .listed "d0"),
  (["close", "cl"],
    .listed "i2042j1010hd010id0f0une3nld1pnb7h91a1j61e1in93hd1kj057dkf1hf9hp3h5jf3i01kg2de129h80
       h27hqb92712sthe1t71hcf21h05q91j1010hd0101111vnh22"),
  (["extend", "ex"],
    .listed "jg0mfhh36hg7ic10111110k8aj0h4h00m56252113i30hehalbaja890h83181214ib2jb8iah71i0j621h
       116a1hd2j8016212290a1ha022j8014412230he130b2j80171212h41h6512j8016212272a1he0jb4321
       390i84j7016121371b1hd2j8016121371b1f0c3j7116121390a1hd2k60451017h21jd026c7m2028b6k9
       1hb0101041j1h3115a1i390m4h3h7342122633db10a3irf2jr23hc2hd1he1k0hf90id210n51i20n6b4b
       tb4j991hc20j0hej14ifh0i68c2hecj8dj0h3p821h4406022s6jfigc1s2i0rve2od0m0hfiia5m91nlt4
       319i01l01hh003040h7440l31j2h1hah1d0i67h9cic3ifdi40k3dc081id2j2012215110i9451uc711kv
       j00iu1fh0fhme1ild0u20p54mo621153i8240q51ijd3k14hjd1kf3k6aj13na2j5ei9021a3ida70jd2i4
       dh01ic0c2j0d8311lcb6020pdbh53j7116212290a12634k381020131410e1l2h1h70l1h3ub628hb1l2h
       0macm5ehg0ev5511231011od62630hc9i8613809aiefhp5717l2h51dna530111610k241114hlb39110j
       0634h70hku506eiss8h1ps04jb6kh801j673l10b1ksqb1him1id2h6ihe4358726he3p42nrbj64j180e0
       h641ell061h0261114m40q06hn70jd3hvc3ve1iu06md6shmt5lfo0uf"),
  (["format", "fo"],
    .listed "qd0lme0v20hgve0nvc021ha4j1419tuof0v92jkj4foom03hksf7siuo60"),
  (["lf"],
    .listed "a0"),
  (["lower", "lo"],
    .listed "m1h9if0a040i4h717101010101010101010101010101010101010101010101010101010111010101010
       10101110101010101010101010101010101010101010101010102010122010203140203220201010201
       11020301021226020201010101010101011101010101010101011201030101010101010101010101010
       1010101010101010101010101010101016202110401010101k41i371he4oc0103023h20hbi211321010
       10101010101010101014102021j3if10101010101010101010101010101010109010101010101010101
       01010101010101010101010101010101010201010101010111010101010101010101010101010101010
       10101010101010101010101010101010101010101010101010101010101010j0i8rn30ivb5oo2810n5r
       fk101010101010101010101010101010101010101010101010101010101010101010101010101010101
       01010101010101010101010101010101010101010101010101010101010101010101810101010101010
       10101010101010101010101010101010101010101010101010101010101010101010101010101010101
       885a78785a7878d2787878411603211832187a211n90d0h0cmd03130hb04040218340i1f40jkbh9nk6i
       f1031101010401117301010101010101010101010101010101010101010101010101010101010101010
       1010101010101010101010101010101011701040ci51050nph301010101010101010101010101010101
       0101010101010h3010101010101010101010101012o5010101010101210101010101010101010101010
       10101010101010101010101010101010101910102010101010401020121010101010101010101050501
       0101010101010401020301010101010h621012jj5ia1d6kfkvk06c4ki9h9ksdi7o8i3pba1e1611hs302
       21i918lg5j2ndh5rjahfllo0hfmlpah9ha61h1hah9ha310161ahah9hah9hah9hah9hah9hah9hah9hah9
       hahbhch815hah815hah815hah815hah81510nj491h365hg5jdor4i1"),
  (["numeric", "nu"],
    .listed "j09ls65la911n00h29s69s61l00o39n69n69n69n69n69n69n69n69n69m09n69k69hh69k69nk69i69hic
       9o09q6969r69l69o6969ops69iq69i69s69h69l69hp69ljh69lo69oo6969jhc9kd0f0i29jc9p09hh69h
       l69n69hn69m696h3kc9hq69m69ip69l69v69k69hq69kht69pi69l69o69ih69lvn69qt4j1pk09hq69hv6
       9v79jl59hip69"),
  (["oletter", "le"],
    .listed "hrb043t00i466bha010o50hu40n6ha44iciai311m210f171a220h001hdhdl8b0h8i091405h5409030h7
       h87a5h715h1i9jaj530h2079ff47212h516103330h00d112e1a085412h516111111hf310h32h08121h5
       16111430h20f1h70b7212h516111430he112f0h1015321331101131323bh60j47121h61f30ha22021he
       047121h6191430hf111f1h18121i820h005282h855h13h7181026jaif11c6ja110141h7101911902410
       h53i00jf71i3hb4n3iah40h05433031724cc0k1ia2hkb132610132i8132i0132610132e1j8132k2i5fn
       1imb2h01h95ka3a7h1dh2eh1ec12fj3i3040k3l8742i1105k5ahej1hd24bib4h9j6h69j4l20ldieh17j
       6hdd1aibhai3i92ai3h2ia22i93151130kja3k7223rq7j770h0h69616161616161616l00ht52h987424
       4l5621l9135ia1ldh1hfj0fig0hprfk0lmock3id2hgc3fa1k20h00i0kfi78m8060m703612131h6hdj3e
       j1je53011bhbah6h9hc7iehc0h0419a41i8h7217h4h6303j11031242010h822a72c525259616p1i2hdi
       rq3ch64j0ihg4hmd2m9k30191c141011111mbi1hmah2jf2j5i8bn441o6m9j72he35252522i3b1h91h21
       11e2di2nak5j4hgbhc3j0ifhfdhd5i5ahd2i34714nakdm2i78j3lcj3chj69h5a7h91nd5201ib11302h6
       ah69hek1h211ah5ah9k6j761k00f3121hciahc3hci371hbhbj5ah5ah2dh1mek8r7i3i65hf0hh0i961h0
       2jbhca08h5iah1ieh4hbh6cj4j9120dici0h8hai3hd0208i230cife3h5010i3h11h8h31jf610131e197
       iei67212h516111430h20c4he910201i510h9010icj4h23h42heifh4110r8iei93i4ifh40jbiad0k7ha
       i56r9ibt372027111h7f010le72i6h0010hc0ai770h50bidh30h2k8s7i0hf81i4h10j1hdn06111i5h50
       h95111hfe0hk7h2f01c1i1nc0kfjp9m6meh1s3qkcm0fkifh15h9vpa5ik6hqr9hdmu2ij87heh1keh1hdh
       2ifh03hfh45h2hr0ichp3ka50k2ck0110hchnv78kt5i99iiu7316111hi2f0hd220e38hobpg4ma5c3879
       iin00hv5ica6h00hk1hdh2ibhu4hbu4hd20huf613111e1s4o60kr431ha1110201913101060401010121
       110201010101011102316131310191h052141h0hhk4qmtfi0hgj96td2hmo1ehtj0fimdpq2ihdlu2hjka
       5hglf"),
  (["scontinue", "sc"],
    .listed "ic1c1jk20hte0qe1hua0hgg9050oga1vuc0suge111hc1hd12120a0q81c1k80"),
  (["sterm", "st"],
    .listed "i10hd0lk90p32r40ib2v60jd01031hi51mu41jh6041jg50s61pd1id050hja1hm23q21a121hd2rb1k11j
       rc192sqf2hj20d0h61hqd0nkvc0hge1u3030hne1l61lf0p81p32p01v90lii6021jf1q90hd0k10qv41kv
       d4ic3rd1n53nf2o1160h01l8111mc0hia1n51hn515em91v92ig5010vb1l71hq41ir41ka1kri91o50k11
       b0ii91hi80kug60htu80"),
  (["sep", "se"],
    .listed "o50hvq21"),
  (["sp"],
    .listed "9011h30nf0hltf0pnfai40if0vq00"),
  (["upper", "up"],
    .listed "k1h9m5h616i101010101010101010101010101010101010101010101010101010102010101010101010
       20101010101010101010101010101010101010101010101110103110111223111231111010111020111
       21011307111111010101010101010201010101010101010211012101010101010101010101010101010
       10101010101010101010101010107111201310101010hi10103080601210111h018i302230101010101
       01010101010105020112j2j001010101010101010101010101010101090101010101010101010101010
       10101010101010101010101010101110101010101020101010101010101010101010101010101010101
       01010101010101010101010101010101010101010101010101010102i5rk9i51050it2l5op30hn60101
       01010101010101010101010101010101010101010101010101010101010101010101010101010101010
       10101010101010101010101010101010101010101010101010101010101010901010101010101010101
       010101010101010101010101010101010101010101010101010101010101010101010101010109785a7
       8785b010101087h87878784b4b3c4b4hg5040322220346010101323a150hafh30jj2h9nj0ifj0012201
       01013102082101010101010101010101010101010101010101010101010101010101010101010101010
       10101010101010101010101010801040npkd010101010101010101010101010101010101010101010h3
       010101010101010101010101010o7010101010101030101010101010101010101010101010101010101
       010101010101010101010a0101110101010401020103010101010101010101014141010101010101013
       10113050101010h80lnibh9ks5i7o8i3pca1e1611muaj2pdh5rjahfllo0hfmlq0h9hah9hah9ha011202
       12317hah9ha1132716hb113141036hbh9hah9hah9hah9hah9hah9heh8i1h8i1h8i1h8i1h8i10hhj5i1o
       geh96h96h9")]

end DocSelect.Regex.Property
